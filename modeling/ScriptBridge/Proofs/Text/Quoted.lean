import ScriptBridge.Proofs.Text.Reading

/-!
# Quoted text and byte strings, read back

Characters and bytes have escapes of their own, which take the same three forms: a character other
than a quote or a backslash that stands for itself, a letter after a backslash, and a number after a
backslash and a mark. The first two characters tell which form it is, so that the first quote that
belongs to no escape is the end.

- `Quoted.Scheme`: what characters stand for, and how numbers are written.
- `Quoted.Scheme.Writes`, `Quoted.Scheme.Writes.append_inj`: the three forms, and that they are told
  apart.
- `Quoted.Scheme.append_quote_inj`: so is what stands before a quote.
- `Quoted.writes_escapeChar`, `Quoted.writes_escapeByte`: the escapes of characters and bytes.
- `Quoted.readsBack_text`, `Quoted.readsBack_bytes`: text and byte strings, whatever follows them.
-/

namespace ScriptBridge.Quoted

variable {α : Type}

/-- What stands between quotes, one character after the other or by number. -/
structure Scheme (α : Type) where
  /-- What a character stands for. -/
  ofChar : Char → α
  /-- What stands between the backslash and a number. -/
  mark : Char
  number : α → List Char
  /-- A number shows where it ends. -/
  number_append_inj {a b : α} {r s : List Char} (h : number a ++ r = number b ++ s) :
    a = b ∧ r = s

/-- The character that is meant by a letter after a backslash. -/
def ofLetter : Char → Char
  | '0' => '\x00'
  | 't' => '\t'
  | 'r' => '\r'
  | 'n' => '\n'
  | c => c

namespace Scheme

variable {S : Scheme α} {a b : α} {xs ys r s : List Char}

/-- The escapes of a scheme. -/
inductive Writes (S : Scheme α) : α → List Char → Prop
  | plain {c : Char} (hslash : c ≠ '\\') (hquote : c ≠ '"') : S.Writes (S.ofChar c) [c]
  | letter {c : Char} (hmark : c ≠ S.mark) : S.Writes (S.ofChar (ofLetter c)) ['\\', c]
  | number (a : α) : S.Writes a ('\\' :: S.mark :: S.number a)

/-- Two escapes that begin one text are escapes of the same, and the same follows. -/
theorem Writes.append_inj (ha : S.Writes a xs) (hb : S.Writes b ys) (h : xs ++ r = ys ++ s) :
    a = b ∧ r = s := by
  cases ha with
  | plain hslash _ =>
    cases hb with
    | plain _ _ =>
      obtain ⟨hchar, htail⟩ := List.cons.inj h
      exact ⟨congrArg S.ofChar hchar, htail⟩
    | letter _ => exact absurd (List.cons.inj h).1 hslash
    | number _ => exact absurd (List.cons.inj h).1 hslash
  | letter hmark =>
    cases hb with
    | plain hslash _ => exact absurd (List.cons.inj h).1.symm hslash
    | letter _ =>
      obtain ⟨hletter, htail⟩ := List.cons.inj (List.cons.inj h).2
      exact ⟨congrArg (S.ofChar ∘ ofLetter) hletter, htail⟩
    | number _ => exact absurd (List.cons.inj (List.cons.inj h).2).1 hmark
  | number a =>
    cases hb with
    | plain hslash _ => exact absurd (List.cons.inj h).1.symm hslash
    | letter hmark => exact absurd (List.cons.inj (List.cons.inj h).2).1.symm hmark
    | number b => exact S.number_append_inj (List.cons.inj (List.cons.inj h).2).2

/-- No escape begins with a quote. -/
theorem Writes.append_ne_quote (ha : S.Writes a xs) : xs ++ r ≠ '"' :: s := by
  intro h
  cases ha with
  | plain _ hquote => exact hquote (List.cons.inj h).1
  | letter _ => exact absurd (List.cons.inj h).1 (by decide)
  | number _ => exact absurd (List.cons.inj h).1 (by decide)

/-- What is escaped ends at the first quote that is no part of an escape. -/
theorem append_quote_inj {escape : α → List Char} (hescape : ∀ a, S.Writes a (escape a))
    {as bs : List α} (h : as.flatMap escape ++ '"' :: r = bs.flatMap escape ++ '"' :: s) :
    as = bs ∧ r = s := by
  induction as generalizing bs with
  | nil =>
    cases bs with
    | nil => exact ⟨rfl, (List.cons.inj h).2⟩
    | cons b bs =>
      rw [List.flatMap_cons, List.append_assoc] at h
      exact absurd h.symm (hescape b).append_ne_quote
  | cons a as ih =>
    rw [List.flatMap_cons, List.append_assoc] at h
    cases bs with
    | nil => exact absurd h (hescape a).append_ne_quote
    | cons b bs =>
      rw [List.flatMap_cons, List.append_assoc] at h
      obtain ⟨rfl, hmore⟩ := (hescape a).append_inj (hescape b) h
      obtain ⟨rfl, hrest⟩ := ih hmore
      exact ⟨rfl, hrest⟩

end Scheme

/-! ## Text -/

theorem codePoint_append_inj {c d : Char} {r s : List Char}
    (h : '\x7b' :: Nat.toDigits 16 c.toNat ++ ['\x7d'] ++ r =
      '\x7b' :: Nat.toDigits 16 d.toNat ++ ['\x7d'] ++ s) : c = d ∧ r = s := by
  have hdigits (n : Nat) : ∀ c ∈ Nat.toDigits 16 n, (c != '\x7d') = true := fun c hc => by
    obtain ⟨k, hk, rfl⟩ := exists_of_mem_toDigits (by decide) hc
    have hall : ∀ k < 16, (Nat.digitChar k != '\x7d') = true := by decide
    exact hall k hk
  simp only [List.cons_append, List.append_assoc, List.nil_append, List.cons.injEq,
    true_and] at h
  obtain ⟨hnumber, hrest⟩ := run_append_inj (hdigits _) (hdigits _) (by simp) (by simp) h
  have hcode := toDigits_injective (by decide) (by decide) hnumber
  exact ⟨Char.toNat_inj.mp hcode, (List.cons.inj hrest).2⟩

/-- The scheme of characters: by their code points. -/
def charScheme : Scheme Char where
  ofChar c := c
  mark := 'u'
  number c := '\x7b' :: Nat.toDigits 16 c.toNat ++ ['\x7d']
  number_append_inj := codePoint_append_inj

theorem writes_escapeChar (c : Char) : charScheme.Writes c (escapeChar c) := by
  unfold escapeChar
  split
  · exact .letter (c := '0') (by decide)
  · exact .letter (c := 't') (by decide)
  · exact .letter (c := 'r') (by decide)
  · exact .letter (c := 'n') (by decide)
  · exact .letter (c := '\\') (by decide)
  · exact .letter (c := '"') (by decide)
  -- what has no letter is neither a backslash nor a quote
  · split
    · exact .plain (c := c) (by assumption) (by assumption)
    · exact .number c

/-- Text shows where it ends. -/
theorem readsBack_text {follows : List Char → Prop} (s t : String) :
    ReadsBack follows text s t := by
  intro r r' _ _ h
  simp only [text, List.cons_append, List.append_assoc, List.nil_append, List.cons.injEq,
    true_and] at h
  obtain ⟨hchars, hrest⟩ := charScheme.append_quote_inj writes_escapeChar h
  exact ⟨String.toList_inj.mp hchars, hrest⟩

/-! ## Byte strings -/

theorem hexPair_append_inj {a b : UInt8} {r s : List Char} (h : hexPair a ++ r = hexPair b ++ s) :
    a = b ∧ r = s := by
  obtain ⟨hhigh, h⟩ := List.cons.inj h
  obtain ⟨hlow, hrest⟩ := List.cons.inj h
  have ha := a.toNat_lt
  have hb := b.toNat_lt
  have hdiv := digitChar_inj (by omega) (by omega) hhigh
  have hmod := digitChar_inj (by omega) (by omega) hlow
  exact ⟨UInt8.toNat_inj.mp (by omega), hrest⟩

/-- The scheme of bytes: by their two digits. -/
def byteScheme : Scheme UInt8 where
  ofChar c := UInt8.ofNat c.toNat
  mark := 'x'
  number := hexPair
  number_append_inj := hexPair_append_inj

/-- An ASCII byte is that of a character, which is no quote or backslash if the byte is none. -/
theorem exists_char_of_lt {b : UInt8} (hlt : b < 0x7F)
    (hquotes : ¬ (b = 0x27 ∨ b = 0x22 ∨ b = 0x5C)) :
    ∃ c, c ≠ '\\' ∧ c ≠ '"' ∧ byteScheme.ofChar c = b ∧ Char.ofNat b.toNat = c := by
  have hall : ∀ n < 0x7F, (Char.ofNat n).toNat = n := by decide
  have hcode : (Char.ofNat b.toNat).toNat = b.toNat :=
    hall _ (UInt8.lt_iff_toNat_lt.mp hlt)
  have hne {c : Char} (h : Char.ofNat b.toNat = c) : b = UInt8.ofNat c.toNat := by
    rw [← h, hcode, UInt8.ofNat_toNat]
  exact ⟨_, fun h => hquotes (.inr (.inr (hne h))), fun h => hquotes (.inr (.inl (hne h))),
    (hne rfl).symm, rfl⟩

theorem writes_escapeByte (b : UInt8) : byteScheme.Writes b (escapeByte b) := by
  unfold escapeByte
  split
  next h => exact h ▸ .letter (c := 't') (by decide)
  split
  next h => exact h ▸ .letter (c := 'r') (by decide)
  split
  next h => exact h ▸ .letter (c := 'n') (by decide)
  split
  next h =>
    rcases h with rfl | rfl | rfl
    · exact .letter (c := '\x27') (by decide)
    · exact .letter (c := '"') (by decide)
    · exact .letter (c := '\\') (by decide)
  next hquotes =>
    split
    next hprint =>
      obtain ⟨c, hslash, hquote, hb, hc⟩ := exists_char_of_lt hprint.2 hquotes
      rw [hc]
      exact hb ▸ .plain hslash hquote
    next => exact .number b

/-- A byte string shows where it ends. -/
theorem readsBack_bytes {follows : List Char → Prop} (as bs : List UInt8) :
    ReadsBack follows bytes as bs := by
  intro r s _ _ h
  simp only [bytes, List.cons_append, List.append_assoc, List.nil_append, List.cons.injEq,
    true_and] at h
  exact byteScheme.append_quote_inj writes_escapeByte h

end ScriptBridge.Quoted
