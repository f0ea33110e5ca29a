import ScriptBridge.Encoding.Open
import ScriptBridge.Proofs.Encoding.Strict
import ScriptBridge.Proofs.Histories
import Mathlib.Data.List.Pairwise

/-!
# What the open encoder makes of each shape

The counterpart of the lemmas on the strict encoder. Between encoding the entries of a map and
storing them stands a sort, so that much of this is about the order of keys.

- `Value.KeyLt`: a key comes before another, by plain text and then by printed form.
- `Value.mergeSort_entryLe_ascending`, `Value.mergeSort_entryLe_eq`: entries with different keys are
  put in strictly ascending order, whatever order they came in.
- `Dict.ofUnsorted_eq_ok`: storing entries in the order of their keys.
- `HostTree.openItems_eq_ok`, `HostTree.openEntries_eq_ok`, `HostTree.openAt_seq_eq_ok`,
  `HostTree.openAt_map_eq_ok`: when the encoder succeeds, and with what.
- `HostTree.openAt_mono`: what can be encoded inside some containers can be inside fewer.
-/

namespace ScriptBridge

/-! ## The order of keys -/

namespace Value

/-- A key comes before another when its plain text does, or else its printed form. -/
def KeyLt (a b : Value) : Prop := a.str < b.str ∨ a.str = b.str ∧ a.repr < b.repr

theorem entryLe_iff {a b : Value × Value} :
    entryLe a b = true ↔ a.1.str < b.1.str ∨ a.1.str = b.1.str ∧ a.1.repr ≤ b.1.repr := by
  unfold entryLe sortKey
  by_cases h : a.1.str = b.1.str
  · simp [h]
  · simp [h, Std.lt_iff_le_and_ne]

theorem entryLe_trans (a b c : Value × Value) (hab : entryLe a b = true)
    (hbc : entryLe b c = true) : entryLe a c = true := by
  rw [entryLe_iff] at hab hbc ⊢
  rcases hab with hab | ⟨hab, hab'⟩
  · rcases hbc with hbc | ⟨hbc, -⟩
    · exact .inl (Std.lt_trans hab hbc)
    · exact .inl (hbc ▸ hab)
  · rcases hbc with hbc | ⟨hbc, hbc'⟩
    · exact .inl (hab ▸ hbc)
    · exact .inr ⟨hab.trans hbc, Std.le_trans hab' hbc'⟩

theorem entryLe_total (a b : Value × Value) : (entryLe a b || entryLe b a) = true := by
  rw [Bool.or_eq_true, entryLe_iff, entryLe_iff]
  rcases Std.lt_trichotomy a.1.str b.1.str with h | h | h
  · exact .inl (.inl h)
  · rcases Std.le_total (a := a.1.repr) (b := b.1.repr) with h' | h'
    · exact .inl (.inr ⟨h, h'⟩)
    · exact .inr (.inr ⟨h.symm, h'⟩)
  · exact .inr (.inl h)

/-- Entries that may stand on either side of each other have one sort key. -/
theorem sortKey_eq_of_entryLe {a b : Value × Value} (hab : entryLe a b = true)
    (hba : entryLe b a = true) : a.1.sortKey = b.1.sortKey := by
  rw [entryLe_iff] at hab hba
  rcases hab with hab | ⟨hstr, hab⟩
  · rcases hba with hba | ⟨hba, -⟩
    · exact absurd hba (Std.not_gt_of_lt hab)
    · exact absurd hba.symm (Std.ne_of_lt hab)
  · rcases hba with hba | ⟨-, hba⟩
    · exact absurd hstr.symm (Std.ne_of_lt hba)
    · exact Prod.ext hstr (Std.le_antisymm hab hba)

theorem keyLt_of_entryLe {a b : Value × Value} (h : entryLe a b = true)
    (hne : a.1.sortKey ≠ b.1.sortKey) : KeyLt a.1 b.1 := by
  rcases entryLe_iff.mp h with h | ⟨hstr, hle⟩
  · exact .inl h
  · exact .inr ⟨hstr, Std.lt_of_le_of_ne hle fun hrepr => hne (Prod.ext hstr hrepr)⟩

/-- Entries whose keys can be told apart by their texts. -/
def SortKeysDiffer (entries : List (Value × Value)) : Prop :=
  entries.Pairwise fun a b => a.1.sortKey ≠ b.1.sortKey

/-- Entries whose keys can be told apart are sorted into strictly ascending order. -/
theorem mergeSort_entryLe_ascending {entries : List (Value × Value)} (h : SortKeysDiffer entries) :
    (entries.mergeSort entryLe).Pairwise fun a b => KeyLt a.1 b.1 := by
  have hsorted := List.pairwise_mergeSort entryLe_trans entryLe_total entries
  have hdiffer : (entries.mergeSort entryLe).Pairwise fun a b => a.1.sortKey ≠ b.1.sortKey :=
    (List.mergeSort_perm entries entryLe).symm.pairwise h fun hab => Ne.symm hab
  exact hsorted.imp₂ (fun _ _ hle hne => keyLt_of_entryLe hle hne) hdiffer

/-- Sorting forgets the order that entries came in, when their keys can be told apart. -/
theorem mergeSort_entryLe_eq {entries entries' : List (Value × Value)}
    (hperm : entries.Perm entries') (h : SortKeysDiffer entries) :
    entries.mergeSort entryLe = entries'.mergeSort entryLe := by
  have hsorted := List.pairwise_mergeSort entryLe_trans entryLe_total
  refine List.Perm.eq_of_pairwise (fun a b ha hb hab hba => ?_) (hsorted entries) (hsorted entries')
    (((List.mergeSort_perm entries entryLe).trans hperm).trans
      (List.mergeSort_perm entries' entryLe).symm)
  -- two members with one sort key are one member
  have ha : a ∈ entries := List.mem_mergeSort.mp ha
  have hb : b ∈ entries := hperm.mem_iff.mpr (List.mem_mergeSort.mp hb)
  by_contra hne
  have : Std.Symm fun a b : Value × Value => a.1.sortKey ≠ b.1.sortKey := ⟨fun _ _ => Ne.symm⟩
  exact h.forall ha hb hne (sortKey_eq_of_entryLe hab hba)

end Value

/-! ## Storing sorted entries -/

/-- Sorted entries are stored when every key is hashable. -/
theorem Dict.insertSorted_eq_ok {dict d : Dict} {entries : List (Value × Value)} :
    insertSorted dict entries = .ok d ↔
      (∀ p ∈ entries, p.1.hashable = true) ∧ d = Assoc.putAll Value.same dict entries := by
  refine run_eq_ok (fun _ => rfl) fun dict p rest d => ?_
  rw [insertSorted]
  simp only [bind_eq_ok, ConvertError.locate_eq_ok, ConvertError.lift_eq_ok, Dict.insert_eq_ok]
  constructor
  · rintro ⟨-, ⟨hhash, rfl⟩, hrest⟩
    exact ⟨hhash, hrest⟩
  · rintro ⟨hhash, hrest⟩
    exact ⟨_, ⟨hhash, rfl⟩, hrest⟩

/-- Entries are stored, whatever order they came in, when every key is hashable. -/
theorem Dict.ofUnsorted_eq_ok {entries : List (Value × Value)} {d : Dict} :
    ofUnsorted entries = .ok d ↔ (∀ p ∈ entries, p.1.hashable = true) ∧
      d = Assoc.putAll Value.same [] (entries.mergeSort Value.entryLe) := by
  simp only [ofUnsorted, insertSorted_eq_ok, List.mem_mergeSort]

/-- Entries whose keys can be told apart make the same dict in whatever order they come. -/
theorem Dict.ofUnsorted_eq_of_perm {entries entries' : List (Value × Value)}
    (hperm : entries.Perm entries') (hkeys : Value.SortKeysDiffer entries) :
    ofUnsorted entries = ofUnsorted entries' := by
  rw [ofUnsorted, ofUnsorted, Value.mergeSort_entryLe_eq hperm hkeys]

namespace HostTree

/-- A list of items is encoded when each item is. -/
theorem openItems_eq_ok {items : List HostTree} {depth index : Nat} {vs : List Value} :
    openItems items depth index = .ok vs ↔
      List.Forall₂ (fun t v => openAt t depth = .ok v) items vs :=
  items_eq_ok (openItems · depth) (fun _ => rfl) fun _ _ _ => rfl

/-- An entry stands for a pair of values: its key encodes to the first and its value to the
second. -/
def OpensEntry (depth : Nat) (e : HostTree × HostTree) (p : Value × Value) : Prop :=
  openAt e.1 depth = .ok p.1 ∧ openAt e.2 depth = .ok p.2

/-- A list of entries is encoded when each key and each value is. -/
theorem openEntries_eq_ok {entries : List (HostTree × HostTree)} {depth : Nat}
    {pairs : List (Value × Value)} :
    openEntries entries depth = .ok pairs ↔ List.Forall₂ (OpensEntry depth) entries pairs :=
  entries_eq_ok (openEntries · depth) rfl (fun _ _ _ => rfl) fun _ _ _ _ => by
    simp only [OpensEntry, ConvertError.locate_eq_ok]

/-! ## Containers -/

theorem openAt_seq_eq_ok {items : List HostTree} {depth : Nat} {v : Value} :
    openAt (seq items) depth = .ok v ↔ depth ≤ maxDepth ∧
      ∃ vs, List.Forall₂ (fun t v => openAt t (depth + 1) = .ok v) items vs ∧ v = .list vs := by
  simp only [openAt, guardDepth_eq_ok, bind_eq_ok, pure_eq_ok, openItems_eq_ok, eq_comm (b := v)]

theorem openAt_map_eq_ok {entries : List (HostTree × HostTree)} {depth : Nat} {v : Value} :
    openAt (map entries) depth = .ok v ↔ depth ≤ maxDepth ∧
      ∃ pairs, List.Forall₂ (OpensEntry (depth + 1)) entries pairs ∧
        ∃ d, Dict.ofUnsorted pairs = .ok d ∧ v = .dict d := by
  simp only [openAt, guardDepth_eq_ok, bind_eq_ok, pure_eq_ok, openEntries_eq_ok,
    eq_comm (b := v)]

/-- A struct has no open form. -/
theorem openAt_struct_ne_ok {typeName : String} {fields : List (String × HostTree)} {depth : Nat}
    {v : Value} : openAt (struct typeName fields) depth ≠ .ok v := by
  simp [openAt]

/-- What can be encoded inside some containers can be encoded inside fewer. -/
theorem openAt_mono {t : HostTree} {depth depth' : Nat} {v : Value} (hle : depth' ≤ depth)
    (h : openAt t depth = .ok v) : openAt t depth' = .ok v := by
  induction t generalizing depth depth' v with
  | seq items ih =>
    obtain ⟨hd, vs, hvs, rfl⟩ := openAt_seq_eq_ok.mp h
    refine openAt_seq_eq_ok.mpr ⟨Nat.le_trans hle hd, vs, ?_, rfl⟩
    exact forall₂_imp_of_mem hvs fun t ht v _ hv => ih t ht (Nat.succ_le_succ hle) hv
  | map entries ih =>
    obtain ⟨hd, pairs, hpairs, hdict⟩ := openAt_map_eq_ok.mp h
    refine openAt_map_eq_ok.mpr ⟨Nat.le_trans hle hd, pairs, ?_, hdict⟩
    exact forall₂_imp_of_mem hpairs fun e he p _ hp =>
      ⟨(ih e he).1 (Nat.succ_le_succ hle) hp.1, (ih e he).2 (Nat.succ_le_succ hle) hp.2⟩
  | _ =>
    simp only [openAt, guardDepth_eq_ok] at h ⊢
    exact ⟨Nat.le_trans hle h.1, h.2⟩

/-- What can be encoded inside containers can be encoded on its own. -/
theorem encodeOpen_eq_ok_of_openAt {t : HostTree} {depth : Nat} {v : Value}
    (h : openAt t depth = .ok v) : encodeOpen t = .ok v :=
  openAt_mono (Nat.zero_le depth) h

end HostTree

end ScriptBridge
