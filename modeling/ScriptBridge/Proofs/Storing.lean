import ScriptBridge.Proofs.Assoc
import Mathlib.Data.List.Perm.Basic

/-!
# Storing under keys that count as the same

What the associations hold after pairs have been stored some of whose keys may count as the same.
Which of two such keys stays depends on the container, and so does where a new one goes.

- `StoresByKey`: what all ways to store a pair have in common.
- `StoresByKey.forall_storeAll_iff`: a property that keys which count as the same share holds of all
  keys that are kept exactly when it holds of all that are given.
- `StoresByKey.storeAll_perm`: pairs whose keys differ are all kept.
- `Assoc.storesByKey`, `Sorted.storesByKey`: the two ways that there are.
- `Distinct.Differ.insertAll`, `Assoc.putAll_keysDiffer`: what is kept differs.
- `Assoc.forall_putAll_of_overwrites`, `Assoc.forall_putAll`, `Assoc.exists_of_mem_putAll`: what is
  kept was given.
- `Assoc.length_putAll_iff`: nothing is lost exactly when the keys differ.
-/

namespace ScriptBridge

variable {α β : Type}

/-- A way to store a pair, among keys of which a new one may count as the same as an old one. -/
structure StoresByKey (clash : α → α → Bool) (put : List (α × β) → α → β → List (α × β)) :
    Prop where
  /-- A pair with a key that differs from all keys there are is stored beside them. -/
  fresh : ∀ entries key value, (∀ e ∈ entries, clash key e.1 = false) →
    (put entries key value).Perm (entries ++ [(key, value)])
  /-- Of two keys that count as the same one is kept. -/
  keys : ∀ (p : α → Prop) entries key value,
    (∀ e ∈ entries, clash key e.1 = true → (p key ↔ p e.1)) →
      ((∀ e ∈ put entries key value, p e.1) ↔ (∀ e ∈ entries, p e.1) ∧ p key)

namespace StoresByKey

variable {clash : α → α → Bool} {put : List (α × β) → α → β → List (α × β)}

/-- A property that keys which count as the same share holds of what is kept exactly when it holds
of what is given. Only good keys have to share it. -/
theorem forall_storeAll_iff {p good : α → Prop} (h : StoresByKey clash put)
    (hclash : ∀ a b, good a → good b → clash a b = true → (p a ↔ p b))
    {entries more : List (α × β)} (hgood : ∀ e ∈ entries ++ more, good e.1) :
    (∀ e ∈ more.foldl (fun acc e => put acc e.1 e.2) entries, p e.1) ↔
      ∀ e ∈ entries ++ more, p e.1 := by
  induction more generalizing entries with
  | nil => simp
  | cons e rest ih =>
    have hentries : ∀ e ∈ entries, good e.1 := fun e' he' => hgood e' (by simp [he'])
    have he : good e.1 := hgood e (by simp)
    -- what is stored so far consists of good keys too
    have hstored : ∀ e' ∈ put entries e.1 e.2, good e'.1 :=
      (h.keys good entries e.1 e.2 fun e' he' _ => iff_of_true he (hentries e' he')).mpr
        ⟨hentries, he⟩
    have hall : ∀ e' ∈ put entries e.1 e.2 ++ rest, good e'.1 := by
      intro e' he'
      rcases List.mem_append.mp he' with he' | he'
      · exact hstored e' he'
      · exact hgood e' (by simp [he'])
    have hput := h.keys p entries e.1 e.2 fun e' he' => hclash e.1 e'.1 he (hentries e' he')
    rw [List.foldl_cons, ih hall, List.forall_mem_append, hput, List.forall_mem_append,
      List.forall_mem_cons, and_assoc]

/-- Pairs whose keys differ are all kept, though perhaps in another order. -/
theorem storeAll_perm (h : StoresByKey clash put) {entries more : List (α × β)}
    (hdiffer : (entries ++ more).Pairwise fun a b =>
      clash a.1 b.1 = false ∧ clash b.1 a.1 = false) :
    (more.foldl (fun acc e => put acc e.1 e.2) entries).Perm (entries ++ more) := by
  induction more generalizing entries with
  | nil => simp
  | cons e rest ih =>
    have hnew : ∀ e' ∈ entries, clash e.1 e'.1 = false := fun e' he' =>
      ((List.pairwise_append.mp hdiffer).2.2 e' he' e (by simp)).2
    have hput := h.fresh entries e.1 e.2 hnew
    have hperm : (put entries e.1 e.2 ++ rest).Perm (entries ++ e :: rest) := by
      simpa using hput.append_right rest
    exact (ih (hperm.symm.pairwise hdiffer And.symm)).trans hperm

end StoresByKey

namespace Distinct

/-- No element is the same as an earlier one. -/
def Differ (same : α → α → Bool) (items : List α) : Prop :=
  items.Pairwise fun earlier later => same later earlier = false

/-- Inserting an element leaves elements that differ. -/
theorem Differ.insert {same : α → α → Bool} {items : List α} (h : Differ same items) (x : α) :
    Differ same (Distinct.insert same items x) := by
  unfold Distinct.insert
  by_cases hany : items.any (same x) = true
  · rwa [if_pos hany]
  · rw [if_neg hany]
    have hnew : ∀ y ∈ items, same x y = false := by simpa using hany
    refine List.pairwise_append.mpr ⟨h, List.pairwise_singleton _ _, fun y hy => ?_⟩
    simpa using hnew y hy

theorem Differ.insertAll {same : α → α → Bool} {items : List α} (h : Differ same items)
    (more : List α) : Differ same (Distinct.insertAll same items more) := by
  induction more generalizing items with
  | nil => exact h
  | cons x rest ih => exact ih (h.insert x)

end Distinct

namespace Assoc

/-- A key that is stored under stays, and a new one is appended. -/
theorem storesByKey (same : α → α → Bool) : StoresByKey same (put (β := β) same) where
  fresh entries key value h := by rw [put_of_fresh value h]
  keys p entries key value h := by
    induction entries with
    | nil => simp [put]
    | cons e rest ih =>
      obtain ⟨hhead, hrest⟩ := List.forall_mem_cons.mp h
      rw [put]
      by_cases hkey : same key e.1 = true
      · simp only [if_pos hkey, List.forall_mem_cons, hhead hkey]
        tauto
      · simp only [if_neg hkey, List.forall_mem_cons, ih hrest, and_assoc]

/-- Entries are related as those there were and the new one are, if a value that is overwritten may
be. -/
theorem forall_put {r : α → β → Prop} {same : α → α → Bool} {entries : List (α × β)} {key : α}
    {value : β} (h : ∀ e ∈ entries, r e.1 e.2) (hnew : r key value)
    (hover : ∀ e ∈ entries, same key e.1 = true → r e.1 value) :
    ∀ e ∈ put same entries key value, r e.1 e.2 := by
  induction entries with
  | nil => simp [put, hnew]
  | cons e rest ih =>
    obtain ⟨he, hrest⟩ := List.forall_mem_cons.mp h
    obtain ⟨hhead, hover⟩ := List.forall_mem_cons.mp hover
    rw [put]
    by_cases hsame : same key e.1 = true
    · rw [if_pos hsame]
      exact List.forall_mem_cons.mpr ⟨hhead hsame, hrest⟩
    · rw [if_neg hsame]
      exact List.forall_mem_cons.mpr ⟨he, ih hrest hover⟩

theorem forall_putAll_of_overwrites {r : α → β → Prop} {same : α → α → Bool}
    {entries more : List (α × β)} (h : ∀ e ∈ entries, r e.1 e.2) (hmore : ∀ e ∈ more, r e.1 e.2)
    (hover : ∀ k v, r k v → ∀ e ∈ more, same e.1 k = true → r k e.2) :
    ∀ e ∈ putAll same entries more, r e.1 e.2 := by
  induction more generalizing entries with
  | nil => exact h
  | cons e rest ih =>
    obtain ⟨he, hrest⟩ := List.forall_mem_cons.mp hmore
    have hput := forall_put h he fun e' he' => hover e'.1 e'.2 (h e' he') e (by simp)
    exact ih hput hrest fun k v hr e' he' => hover k v hr e' (by simp [he'])

/-- Keys and values that are stored have been there or are those given. -/
theorem forall_putAll {p : α → Prop} {q : β → Prop} (same : α → α → Bool)
    {entries more : List (α × β)} (h : ∀ e ∈ entries, p e.1 ∧ q e.2)
    (hmore : ∀ e ∈ more, p e.1 ∧ q e.2) : ∀ e ∈ putAll same entries more, p e.1 ∧ q e.2 :=
  forall_putAll_of_overwrites (r := fun k v => p k ∧ q v) h hmore fun _ _ hr e he _ =>
    ⟨hr.1, (hmore e he).2⟩

/-- What is stored under a key was given for that key, or for one that is the same. -/
theorem exists_of_mem_putAll {same : α → α → Bool} {pairs : List (α × β)} {e : α × β}
    (he : e ∈ putAll same [] pairs) :
    (∃ a ∈ pairs, a.1 = e.1) ∧ ∃ a ∈ pairs, (a.1 = e.1 ∨ same a.1 e.1 = true) ∧ a.2 = e.2 := by
  refine forall_putAll_of_overwrites (r := fun k v => (∃ a ∈ pairs, a.1 = k) ∧
    ∃ a ∈ pairs, (a.1 = k ∨ same a.1 k = true) ∧ a.2 = v) (List.forall_mem_nil _) ?_ ?_ e he
  · exact fun a ha => ⟨⟨a, ha, rfl⟩, a, ha, .inl rfl, rfl⟩
  · exact fun _ _ hr a ha hsame => ⟨hr.1, a, ha, .inr hsame, rfl⟩

/-- Storing pairs leaves keys that differ. -/
theorem putAll_keysDiffer {same : α → α → Bool} {entries : List (α × β)}
    (h : KeysDiffer same entries) (more : List (α × β)) :
    KeysDiffer same (putAll same entries more) := by
  have hkeys : Distinct.Differ same (entries.map (·.1)) := List.pairwise_map.mpr h
  have hstored := hkeys.insertAll (more.map (·.1))
  rw [← keys_putAll] at hstored
  exact List.pairwise_map.mp hstored

/-- As many entries are kept as are given exactly when no key is that of an earlier one. -/
theorem length_putAll_iff {same : α → α → Bool} {pairs : List (α × β)} :
    (putAll same [] pairs).length = pairs.length ↔ KeysDiffer same pairs := by
  constructor
  · intro hlength
    have hkeys : (putAll same [] pairs).map (·.1) = pairs.map (·.1) :=
      (putAll_keys_sublist same [] pairs).eq_of_length (by simpa using hlength)
    have hstored : ((putAll same [] pairs).map (·.1)).Pairwise fun a b => same b a = false :=
      List.pairwise_map.mpr (putAll_keysDiffer .nil pairs)
    rw [hkeys] at hstored
    exact List.pairwise_map.mp hstored
  · intro h
    rw [putAll_of_keysDiffer h]

end Assoc

namespace Sorted

/-- A key takes the place of an equal one, and a new one goes where it belongs. -/
theorem storesByKey (cmp : α → α → Ordering) :
    StoresByKey (fun a b => cmp a b == .eq) (put (β := β) cmp) where
  fresh entries key value h := by
    induction entries with
    | nil => exact .refl _
    | cons e rest ih =>
      obtain ⟨hhead, hrest⟩ := List.forall_mem_cons.mp h
      rw [put]
      cases hcmp : cmp key e.1 with
      | lt => exact (List.perm_append_singleton _ _).symm
      | eq => simp [hcmp] at hhead
      | gt => exact (ih hrest).cons e
  keys p entries key value h := by
    induction entries with
    | nil => simp [put]
    | cons e rest ih =>
      obtain ⟨hhead, hrest⟩ := List.forall_mem_cons.mp h
      rw [put]
      cases hcmp : cmp key e.1 with
      | lt =>
        simp only [List.forall_mem_cons]
        tauto
      | eq =>
        have hkey : p key ↔ p e.1 := hhead (by simp [hcmp])
        simp only [List.forall_mem_cons, hkey]
        tauto
      | gt => simp only [List.forall_mem_cons, ih hrest, and_assoc]

end Sorted

end ScriptBridge
