import ScriptBridge.Value.Printer

/-!
# Texts that can be read back

A text that is followed by more text need not show where it ends: a number would go on with a
further digit. What may follow is known, though, and never begins with a character that goes on.
No reader is needed to make use of this. Where a text begins with those of two things, each followed
by what may follow it, they are compared from the left until the things turn out to be one.

- `ReadsBack`: two things are told apart by their texts, whatever may follow them.
- `run_append`, `run_append_inj`: a run of characters ends where a character is not one of them.
- `toDigits_injective`: numbers are told apart by their digits.
- `Stops`, `Ends`: what may follow an item, and what may follow a list of items.
- `readsBack_commaSeparated`: lists are told apart as their items are.
-/

namespace ScriptBridge

variable {α : Type}

/-- Whenever one text begins with those of two things, and what is left may follow them, they are
one thing, and the same is left. -/
def ReadsBack (follows : List Char → Prop) (text : α → List Char) (a b : α) : Prop :=
  ∀ r s, follows r → follows s → text a ++ r = text b ++ s → a = b ∧ r = s

/-! ## Runs -/

/-- A run of characters that pass a test ends where what follows begins with one that does not. -/
theorem run_append {p : Char → Bool} {run r : List Char} (hrun : ∀ c ∈ run, p c = true)
    (hr : ∀ c ∈ r.head?, p c = false) :
    (run ++ r).takeWhile p = run ∧ (run ++ r).dropWhile p = r := by
  rw [List.takeWhile_append_of_pos hrun, List.dropWhile_append_of_pos hrun]
  cases r with
  | nil => exact ⟨List.append_nil _, rfl⟩
  | cons c r =>
    have hc : p c = false := hr c rfl
    simp [hc]

/-- Runs are told apart by themselves. -/
theorem run_append_inj {p : Char → Bool} {xs ys r s : List Char} (hxs : ∀ c ∈ xs, p c = true)
    (hys : ∀ c ∈ ys, p c = true) (hr : ∀ c ∈ r.head?, p c = false)
    (hs : ∀ c ∈ s.head?, p c = false) (h : xs ++ r = ys ++ s) : xs = ys ∧ r = s := by
  obtain ⟨hx, hxr⟩ := run_append hxs hr
  obtain ⟨hy, hys⟩ := run_append hys hs
  exact ⟨hx.symm.trans (h ▸ hy), hxr.symm.trans (h ▸ hys)⟩

theorem digitChar_inj {m n : Nat} (hm : m < 16) (hn : n < 16)
    (h : Nat.digitChar m = Nat.digitChar n) : m = n := by
  have hall : ∀ m < 16, ∀ n < 16, Nat.digitChar m = Nat.digitChar n → m = n := by decide
  exact hall m hm n hn h

theorem exists_of_mem_toDigits {base n : Nat} (hbase : 1 < base) {c : Char}
    (hc : c ∈ Nat.toDigits base n) : ∃ d < base, c = Nat.digitChar d := by
  induction n using Nat.strongRecOn with
  | ind n ih =>
    rw [Nat.toDigits_eq_if hbase] at hc
    split at hc
    · exact ⟨n, by assumption, List.mem_singleton.mp hc⟩
    · rcases List.mem_append.mp hc with hinit | hlast
      · exact ih (n / base) (Nat.div_lt_self (by omega) hbase) hinit
      · exact ⟨n % base, Nat.mod_lt n (by omega), List.mem_singleton.mp hlast⟩

/-- Up to base sixteen, numbers are told apart by their digits. -/
theorem toDigits_injective {base : Nat} (hbase : 1 < base) (hle : base ≤ 16) :
    Function.Injective (Nat.toDigits base) := by
  intro m n h
  induction m using Nat.strongRecOn generalizing n with
  | ind m ih =>
    have hdigit (k : Nat) : k % base < 16 := Nat.lt_of_lt_of_le (Nat.mod_lt k (by omega)) hle
    rw [Nat.toDigits_eq_if hbase, Nat.toDigits_eq_if (n := n) hbase] at h
    split at h <;> split at h
    · exact digitChar_inj (by omega) (by omega) (List.singleton_inj.mp h)
    · exact absurd (List.append_eq_singleton_iff.mp h.symm) (by simp)
    · exact absurd (List.append_eq_singleton_iff.mp h) (by simp)
    · -- the last digits agree, and the digits before them are those of smaller numbers
      obtain ⟨hinit, hlast⟩ := List.append_inj' h rfl
      have hdiv := ih (m / base) (Nat.div_lt_self (by omega) hbase) hinit
      have hmod := digitChar_inj (hdigit m) (hdigit n) (List.singleton_inj.mp hlast)
      rw [← Nat.div_add_mod m base, ← Nat.div_add_mod n base, hdiv, hmod]

/-! ## Lists -/

/-- The characters that stand after an item of a container, or a key. -/
def stopChars : List Char := [',', ':', ')', ']', '\x7d']

/-- What may follow an item: nothing, or a text that begins with a stop character. -/
def Stops (r : List Char) : Prop := ∀ c ∈ r.head?, c ∈ stopChars

/-- What may follow a list: what may follow its last item, other than a comma and a next one. -/
def Ends (r : List Char) : Prop := Stops r ∧ ∀ s, r ≠ ',' :: ' ' :: s

/-- A text does not begin with a stop character, so that nothing it begins may follow an item. -/
def Begins (text : List Char) : Prop := ∀ r, ¬ Stops (text ++ r)

theorem stops_nil : Stops [] := nofun

theorem stops_cons {c : Char} {r : List Char} : Stops (c :: r) ↔ c ∈ stopChars := by
  simp [Stops]

theorem begins_cons {c : Char} {text : List Char} : Begins (c :: text) ↔ c ∉ stopChars := by
  simp [Begins, stops_cons]

theorem Begins.append {text : List Char} (h : Begins text) (more : List Char) :
    Begins (text ++ more) := fun r => by
  rw [List.append_assoc]
  exact h _

theorem ends_cons {c : Char} {r : List Char} (hc : c ∈ stopChars) (hcomma : c ≠ ',') :
    Ends (c :: r) :=
  ⟨stops_cons.mpr hc, fun _ h => hcomma (List.cons.inj h).1⟩

section

variable {text : α → List Char} {as bs : List α}

/-- What is told apart before the end of a list is told apart inside brackets. -/
theorem ReadsBack.closed {a b : α} {close : Char} {r s : List Char}
    (h : ReadsBack Ends text a b) (hclose : close ∈ stopChars) (hcomma : close ≠ ',')
    (heq : text a ++ close :: r = text b ++ close :: s) : a = b ∧ r = s := by
  obtain ⟨hab, hrest⟩ := h _ _ (ends_cons hclose hcomma) (ends_cons hclose hcomma) heq
  exact ⟨hab, (List.cons.inj hrest).2⟩

/-- The items after the first one, each with a comma before it. -/
def furtherItems (text : α → List Char) (items : List α) : List Char :=
  items.flatMap fun a => ',' :: ' ' :: text a

theorem commaSeparated_cons (a : α) (items : List α) :
    commaSeparated ((a :: items).map text) = text a ++ furtherItems text items := by
  induction items generalizing a with
  | nil => simp [commaSeparated, furtherItems]
  | cons b items ih =>
    rw [List.map_cons, List.map_cons, commaSeparated, List.intercalate_cons_cons, ← commaSeparated,
      ← List.map_cons, ih, List.append_assoc]
    rfl

theorem furtherItems_cons (a : α) (items : List α) :
    furtherItems text (a :: items) = ',' :: ' ' :: commaSeparated ((a :: items).map text) := by
  rw [commaSeparated_cons]
  rfl

theorem begins_commaSeparated {a : α} (h : Begins (text a)) (items : List α) :
    Begins (commaSeparated ((a :: items).map text)) :=
  commaSeparated_cons a items ▸ h.append _

theorem stops_furtherItems {items : List α} {r : List Char} (hr : Stops r) :
    Stops (furtherItems text items ++ r) := by
  cases items with
  | nil => exact hr
  | cons a items => exact stops_cons.mpr (by decide)

/-- Further items go on as long as there is a comma with a space after it. -/
theorem readsBack_furtherItems (h : ∀ a ∈ as, ∀ b ∈ bs, ReadsBack Stops text a b) :
    ReadsBack Ends (furtherItems text) as bs := by
  intro r s hr hs heq
  induction as generalizing bs with
  | nil =>
    cases bs with
    | nil => exact ⟨rfl, heq⟩
    -- a further item would begin with a comma and a space, which is no end
    | cons b bs => exact absurd heq (hr.2 _)
  | cons a as ih =>
    cases bs with
    | nil => exact absurd heq.symm (hs.2 _)
    | cons b bs =>
      simp only [furtherItems_cons, commaSeparated_cons, List.cons_append, List.append_assoc,
        List.cons.injEq, true_and] at heq
      obtain ⟨rfl, hfurther⟩ := h a (by simp) b (by simp) _ _ (stops_furtherItems hr.1)
        (stops_furtherItems hs.1) heq
      obtain ⟨rfl, hrest⟩ := ih (fun a ha b hb => h a (by simp [ha]) b (by simp [hb])) hfurther
      exact ⟨rfl, hrest⟩

/-- **Lists are told apart as their items are**, if no item begins as if the list were over. -/
theorem readsBack_commaSeparated (h : ∀ a ∈ as, ∀ b ∈ bs, ReadsBack Stops text a b)
    (has : ∀ a ∈ as, Begins (text a)) (hbs : ∀ b ∈ bs, Begins (text b)) :
    ReadsBack Ends (fun items => commaSeparated (items.map text)) as bs := by
  intro r s hr hs heq
  cases as with
  | nil =>
    cases bs with
    | nil => exact ⟨rfl, heq⟩
    | cons b bs => exact absurd (heq ▸ hr.1) (begins_commaSeparated (hbs b (by simp)) bs s)
  | cons a as =>
    cases bs with
    | nil => exact absurd (heq ▸ hs.1) (begins_commaSeparated (has a (by simp)) as r)
    | cons b bs =>
      -- two lists with items may as well have a comma before the first one
      have hfurther : furtherItems text (a :: as) ++ r = furtherItems text (b :: bs) ++ s := by
        rw [furtherItems_cons, furtherItems_cons]
        exact congrArg (',' :: ' ' :: ·) heq
      exact readsBack_furtherItems h r s hr hs hfurther

end

end ScriptBridge
