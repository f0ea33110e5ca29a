import ScriptBridge.Host.Order
import ScriptBridge.Proofs.Traversal
import Mathlib.Data.List.Basic

/-!
# Storing under different keys

What the associations hold after pairs have been stored whose keys nothing before them has: exactly
those pairs, in their order.

- `foldl_eq_append`: a step that appends whatever is new, repeated over a list of new things,
  appends the list. All three kinds of container are cases of it.
- `find?_eq_some_of_unique`, `find?_perm`: searches that one member at most can answer.
- `Assoc.KeysDiffer`: no entry has the key of an earlier one.
- `Assoc.within_iff`: loops that look the entries of one list up in another.
- `Assoc.keys_putAll`: storing pairs inserts their keys, so that keys are kept as elements are.
- `Assoc.putAll_of_keysDiffer`, `Distinct.insertAll_of_differ`, `Sorted.putAll_of_ascending`: what
  differs from all before it is kept, in its place.
-/

namespace ScriptBridge

variable {α β : Type}

/-- If a step appends each thing that stands in a relation to all that is there, then repeating it
over a list, any two members of which stand in that relation, appends the list. -/
theorem foldl_eq_append {step : List α → α → List α} {r : α → α → Prop}
    (hstep : ∀ acc x, (∀ y ∈ acc, r y x) → step acc x = acc ++ [x]) (acc more : List α)
    (h : (acc ++ more).Pairwise r) : more.foldl step acc = acc ++ more := by
  -- by induction on what is still to come; the relation moves along with the list there is
  induction more generalizing acc with
  | nil => simp
  | cons x rest ih =>
    have hx : ∀ y ∈ acc, r y x := fun y hy => (List.pairwise_append.mp h).2.2 y hy x (by simp)
    have hnext : ((acc ++ [x]) ++ rest).Pairwise r := by simpa using h
    rw [List.foldl_cons, hstep acc x hx, ih _ hnext]
    simp

/-- A search finds the only member that passes the test. -/
theorem find?_eq_some_of_unique {p : α → Bool} {l : List α} {a : α} (ha : a ∈ l)
    (hp : p a = true) (hunique : ∀ b ∈ l, p b = true → b = a) : l.find? p = some a := by
  cases h : l.find? p with
  | none => exact absurd hp (List.find?_eq_none.mp h a ha)
  | some b => rw [hunique b (List.mem_of_find?_eq_some h) (List.find?_some h)]

/-- Where at most one member passes a test, the search finds the same in every order. -/
theorem find?_perm {p : α → Bool} {l l' : List α} (hperm : l.Perm l')
    (hunique : ∀ a ∈ l, ∀ b ∈ l, p a = true → p b = true → a = b) : l.find? p = l'.find? p := by
  cases h : l.find? p with
  | none =>
    rw [List.find?_eq_none] at h
    exact (List.find?_eq_none.mpr fun a ha => h a (hperm.mem_iff.mpr ha)).symm
  | some a =>
    have ha : a ∈ l := List.mem_of_find?_eq_some h
    have hp : p a = true := List.find?_some h
    refine (find?_eq_some_of_unique (hperm.mem_iff.mp ha) hp fun b hb hpb => ?_).symm
    exact hunique b (hperm.mem_iff.mpr hb) a ha hpb hp

namespace Distinct

/-- Inserting looks for the element from the front. -/
theorem insert_cons (same : α → α → Bool) (y : α) (items : List α) (x : α) :
    insert same (y :: items) x = if same x y then y :: items else y :: insert same items x := by
  unfold insert
  by_cases h : same x y = true
  · simp [h]
  · by_cases hany : items.any (same x) = true
    · rw [List.any_cons, hany, Bool.or_true, if_pos rfl, if_neg h, if_pos rfl]
    · rw [List.any_cons, Bool.eq_false_iff.mpr hany, Bool.eq_false_iff.mpr h]
      rfl

/-- Inserting elements keeps them in the order in which they came. -/
theorem insertAll_sublist (same : α → α → Bool) (items more : List α) :
    (insertAll same items more).Sublist (items ++ more) := by
  induction more generalizing items with
  | nil => simp [insertAll]
  | cons x rest ih =>
    have hinsert : (insert same items x).Sublist (items ++ [x]) := by
      unfold insert
      split
      · exact List.sublist_append_left items [x]
      · exact List.Sublist.refl _
    calc (insertAll same (insert same items x) rest).Sublist (insert same items x ++ rest) := ih _
      List.Sublist _ ((items ++ [x]) ++ rest) := hinsert.append (List.Sublist.refl _)
      _ = items ++ x :: rest := by simp

end Distinct

namespace Assoc

/-- Storing under a key that no entry has appends the pair. -/
theorem put_of_fresh {same : α → α → Bool} {entries : List (α × β)} {key : α} (value : β)
    (h : ∀ e ∈ entries, same key e.1 = false) :
    put same entries key value = entries ++ [(key, value)] := by
  induction entries with
  | nil => rfl
  | cons e rest ih =>
    have he : same key e.1 = false := h e (by simp)
    have hrest : ∀ e ∈ rest, same key e.1 = false := fun e' he' => h e' (by simp [he'])
    rw [put, he, if_neg (by simp), ih hrest]
    rfl

/-- No entry has the key of an earlier one. -/
def KeysDiffer (same : α → α → Bool) (entries : List (α × β)) : Prop :=
  entries.Pairwise fun earlier later => same later.1 earlier.1 = false

/-- Of keys that are compared by equality none stands twice. -/
theorem keysDiffer_iff_nodup [BEq α] [LawfulBEq α] {entries : List (α × β)} :
    KeysDiffer (· == ·) entries ↔ (entries.map (·.1)).Nodup := by
  rw [List.Nodup, List.pairwise_map]
  constructor
  · intro h
    exact h.imp fun hne => Ne.symm (ne_of_beq_false hne)
  · intro h
    exact h.imp fun hne => beq_false_of_ne (Ne.symm hne)

/-- Where keys differ, looking an entry's key up finds the entry. -/
theorem KeysDiffer.find?_self {same : α → α → Bool} {entries : List (α × β)}
    (h : KeysDiffer same entries) {e : α × β} (he : e ∈ entries) (hself : same e.1 e.1 = true) :
    entries.find? (fun e' => same e.1 e'.1) = some e := by
  obtain ⟨before, after, rfl⟩ := List.append_of_mem he
  have hbefore : ∀ e' ∈ before, same e.1 e'.1 = false := fun e' he' =>
    (List.pairwise_append.mp h).2.2 e' he' e (by simp)
  rw [List.find?_append, List.find?_eq_none.mpr fun e' he' => by simp [hbefore e' he']]
  simp [hself]

/-- A loop that looks each entry up and compares the values says that all are found. -/
theorem within_iff {same : α → α → Bool} {sameValue : β → β → Bool}
    {within : List (α × β) → List (α × β) → Bool} (hnil : ∀ bs, within [] bs = true)
    (hcons : ∀ a as bs, within (a :: as) bs =
      ((bs.find? fun e => same a.1 e.1).any (fun e => sameValue a.2 e.2) && within as bs))
    {as bs : List (α × β)} :
    within as bs = true ↔
      ∀ a ∈ as, ∃ b, bs.find? (fun e => same a.1 e.1) = some b ∧ sameValue a.2 b.2 = true := by
  rw [all_eq_true_iff (within · bs) (hnil bs) fun a as => hcons a as bs]
  refine forall_congr' fun a => imp_congr_right fun _ => ?_
  cases bs.find? fun e => same a.1 e.1 with
  | none => simp
  | some b => simp

/-- Pairs whose keys differ are all kept, in their order. -/
theorem putAll_of_keysDiffer {same : α → α → Bool} {entries : List (α × β)}
    (h : KeysDiffer same entries) : putAll same [] entries = entries :=
  foldl_eq_append (fun _ e he => put_of_fresh e.2 he) [] entries h

/-- Storing a pair inserts its key. -/
theorem keys_put (same : α → α → Bool) (entries : List (α × β)) (key : α) (value : β) :
    (put same entries key value).map (·.1) = Distinct.insert same (entries.map (·.1)) key := by
  induction entries with
  | nil => rfl
  | cons e rest ih =>
    rw [put, List.map_cons, Distinct.insert_cons, ← ih]
    by_cases h : same key e.1 = true
    · rw [if_pos h, if_pos h]
      rfl
    · rw [if_neg h, if_neg h]
      rfl

/-- Storing pairs inserts their keys, one after the other. -/
theorem keys_putAll (same : α → α → Bool) (entries more : List (α × β)) :
    (putAll same entries more).map (·.1) =
      Distinct.insertAll same (entries.map (·.1)) (more.map (·.1)) := by
  induction more generalizing entries with
  | nil => rfl
  | cons e rest ih =>
    show (putAll same (put same entries e.1 e.2) rest).map (·.1) = _
    rw [ih, keys_put]
    rfl

/-- Storing pairs keeps the keys in the order in which they came. -/
theorem putAll_keys_sublist (same : α → α → Bool) (entries more : List (α × β)) :
    ((putAll same entries more).map (·.1)).Sublist (entries.map (·.1) ++ more.map (·.1)) := by
  rw [keys_putAll]
  exact Distinct.insertAll_sublist same _ _

end Assoc

namespace Distinct

/-- Elements that differ are all kept, in their order. -/
theorem insertAll_of_differ {same : α → α → Bool} {items : List α}
    (h : items.Pairwise fun earlier later => same later earlier = false) :
    insertAll same [] items = items := by
  refine foldl_eq_append (fun acc x hx => ?_) [] items h
  have hnew : acc.any (same x) = false := List.any_eq_false.mpr fun y hy => by simp [hx y hy]
  rw [insert, hnew, if_neg (by simp)]

end Distinct

namespace Sorted

/-- Storing under a key above all others appends the pair. -/
theorem put_of_above {cmp : α → α → Ordering} {entries : List (α × β)} {key : α} (value : β)
    (h : ∀ e ∈ entries, cmp key e.1 = .gt) :
    put cmp entries key value = entries ++ [(key, value)] := by
  induction entries with
  | nil => rfl
  | cons e rest ih =>
    have he : cmp key e.1 = .gt := h e (by simp)
    have hrest : ∀ e ∈ rest, cmp key e.1 = .gt := fun e' he' => h e' (by simp [he'])
    rw [put, he]
    simp only [ih hrest, List.cons_append]

/-- Pairs in ascending order of keys are all kept, in that order. -/
theorem putAll_of_ascending {cmp : α → α → Ordering} {entries : List (α × β)}
    (h : entries.Pairwise fun earlier later => cmp later.1 earlier.1 = .gt) :
    putAll cmp [] entries = entries :=
  foldl_eq_append (fun _ e he => put_of_above e.2 he) [] entries h

end Sorted

end ScriptBridge
