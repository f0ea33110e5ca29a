import ScriptBridge.Proofs.Histories
import Mathlib.Data.List.Nodup

/-!
# Maps in ascending order

A sorted map is built one pair after the other like every map, but a pair goes to the place of its
key, and of two equal keys the last one stays. All the same it holds what an insertion-ordered map
of the same pairs holds, if the comparison is a linear order and keys that count as the same are
equal.

- `Coherent`: three comparisons that an order can give together; `Coherent.chain` chains them, and
  `Coherent.compareLex` all those of members of lists.
- `OrderOn`: a comparison is a linear order among good elements.
- `Sorted.Ascending`: each key is below all later ones; `Sorted.ascending_putAll` keeps it so.
- `Sorted.get?_putAll`: of the values stored under a key the last is found.
- `Sorted.keys_perm`: the keys are the first occurrences of those given, in some order.
-/

namespace ScriptBridge

/-! ## Comparisons that go together -/

/-- What an order can say of a first and a second, the second and a third, and the first and the
third. -/
def Coherent (ab bc ac : Ordering) : Prop :=
  (ab = .eq → ac = bc) ∧ (bc = .eq → ac = ab) ∧ (ab = .lt → bc = .lt → ac = .lt) ∧
    (ab = .gt → bc = .gt → ac = .gt)

namespace Coherent

variable {ab bc ac ab' bc' ac' : Ordering}

/-- Comparisons that decide first, and others that decide where those do not. -/
theorem chain (h : Coherent ab bc ac) (h' : Coherent ab' bc' ac') :
    Coherent (ab.then ab') (bc.then bc') (ac.then ac') := by
  unfold Coherent at *
  cases ab <;> cases bc <;> simp_all

/-- Comparisons by a lawful order. -/
theorem of_compare {α : Type} [Ord α] [Std.TransOrd α] (a b c : α) :
    Coherent (compare a b) (compare b c) (compare a c) := by
  refine ⟨fun h => ?_, fun h => ?_, fun h h' => ?_, fun h h' => ?_⟩
  · exact Std.TransCmp.congr_left h
  · exact (Std.TransCmp.congr_right h).symm
  · exact Std.TransCmp.lt_trans h h'
  · exact Std.TransCmp.gt_trans h h'

/-- Comparisons of lists by the first difference, from those of the members at each index. -/
theorem compareLex {α : Type} {cmp : α → α → Ordering} {as bs cs : List α}
    (h : ∀ (i : Nat) (a b c : α), as[i]? = some a → bs[i]? = some b → cs[i]? = some c →
      Coherent (cmp a b) (cmp b c) (cmp a c)) :
    Coherent (as.compareLex cmp bs) (bs.compareLex cmp cs) (as.compareLex cmp cs) := by
  induction as generalizing bs cs with
  | nil => cases bs <;> cases cs <;> simp [Coherent, List.compareLex]
  | cons a as ih =>
    cases bs with
    | nil => cases cs <;> simp [Coherent, List.compareLex]
    | cons b bs =>
      cases cs with
      | nil => simp [Coherent, List.compareLex]
      | cons c cs =>
        simp only [List.compareLex_cons_cons]
        exact (h 0 a b c rfl rfl rfl).chain (ih fun i a b c => h (i + 1) a b c)

end Coherent

variable {α β : Type}

/-- A comparison is a linear order among good elements. -/
structure OrderOn (cmp : α → α → Ordering) (good : α → Prop) : Prop where
  swap : ∀ {a b}, good a → good b → cmp b a = (cmp a b).swap
  coherent : ∀ {a b c}, good a → good b → good c → Coherent (cmp a b) (cmp b c) (cmp a c)
  eq : ∀ {a b}, good a → good b → cmp a b = .eq → a = b

namespace OrderOn

variable {cmp : α → α → Ordering} {good : α → Prop}

theorem self (h : OrderOn cmp good) {a : α} (ha : good a) : cmp a a = .eq := by
  have hswap := h.swap ha ha
  cases hcmp : cmp a a <;> simp_all

theorem lt_trans (h : OrderOn cmp good) {a b c : α} (ha : good a) (hb : good b) (hc : good c)
    (hab : cmp a b = .lt) (hbc : cmp b c = .lt) : cmp a c = .lt :=
  (h.coherent ha hb hc).2.2.1 hab hbc

end OrderOn

namespace Sorted

variable {cmp : α → α → Ordering} {same : α → α → Bool} {good : α → Prop}
  {entries pairs : List (α × β)} {key k : α} {value : β}

/-- Each key is below all later ones. -/
def Ascending (cmp : α → α → Ordering) (entries : List (α × β)) : Prop :=
  entries.Pairwise fun earlier later => cmp earlier.1 later.1 = .lt

/-! ## Order -/

theorem mem_put {e : α × β} (h : e ∈ put cmp entries key value) :
    e = (key, value) ∨ e ∈ entries := by
  induction entries with
  | nil => exact .inl (List.mem_singleton.mp h)
  | cons e' rest ih =>
    rw [put] at h
    cases hcmp : cmp key e'.1 with
    | lt => simpa [hcmp] using h
    | eq =>
      rw [hcmp] at h
      exact (List.mem_cons.mp h).imp_right (List.mem_cons_of_mem e')
    | gt =>
      rw [hcmp] at h
      rcases List.mem_cons.mp h with rfl | h
      · exact .inr (by simp)
      · exact (ih h).imp_right (List.mem_cons_of_mem e')

/-- What is kept was there or is given. -/
theorem mem_putAll {e : α × β} (h : e ∈ putAll cmp entries pairs) : e ∈ entries ++ pairs := by
  induction pairs generalizing entries with
  | nil => simpa [putAll] using h
  | cons p rest ih =>
    rcases List.mem_append.mp (ih h) with h | h
    · rcases mem_put h with rfl | h
      · simp
      · simp [h]
    · simp [h]

theorem Ascending.put (horder : OrderOn cmp good) (h : Ascending cmp entries)
    (hentries : ∀ e ∈ entries, good e.1) (hkey : good key) :
    Ascending cmp (Sorted.put cmp entries key value) := by
  induction entries with
  | nil => exact List.pairwise_singleton _ _
  | cons e rest ih =>
    obtain ⟨hfirst, hascending⟩ := List.pairwise_cons.mp h
    obtain ⟨he, hrest⟩ := List.forall_mem_cons.mp hentries
    rw [Sorted.put]
    cases hcmp : cmp key e.1 with
    | lt =>
      refine List.pairwise_cons.mpr ⟨List.forall_mem_cons.mpr ⟨hcmp, fun e' he' => ?_⟩, h⟩
      exact horder.lt_trans hkey he (hrest e' he') hcmp (hfirst e' he')
    | eq =>
      obtain rfl := horder.eq hkey he hcmp
      exact List.pairwise_cons.mpr ⟨hfirst, hascending⟩
    | gt =>
      -- the key is above the first one, as are those that were there
      have hbelow : cmp e.1 key = .lt := by rw [horder.swap hkey he, hcmp, Ordering.swap_gt]
      refine List.pairwise_cons.mpr ⟨fun e' he' => ?_, ih hascending hrest⟩
      rcases mem_put he' with rfl | he'
      · exact hbelow
      · exact hfirst e' he'

/-- Storing pairs keeps the keys in strictly ascending order. -/
theorem ascending_putAll (horder : OrderOn cmp good) (h : Ascending cmp entries)
    (hentries : ∀ e ∈ entries, good e.1) (hpairs : ∀ e ∈ pairs, good e.1) :
    Ascending cmp (putAll cmp entries pairs) := by
  induction pairs generalizing entries with
  | nil => exact h
  | cons e rest ih =>
    obtain ⟨he, hrest⟩ := List.forall_mem_cons.mp hpairs
    refine ih (h.put horder hentries he) (fun e' he' => ?_) hrest
    rcases mem_put he' with rfl | he'
    · exact he
    · exact hentries e' he'

/-! ## Lookups -/

/-- After a pair is stored its value is found under the key, and nothing else has changed. -/
theorem get?_put (horder : OrderOn cmp good)
    (hequal : ∀ {a b}, good a → good b → same a b = true → a = b)
    (hentries : ∀ e ∈ entries, good e.1) (hkey : good key) (hk : good k) :
    Assoc.get? same (put cmp entries key value) k =
      if same k key then some value else Assoc.get? same entries k := by
  induction entries with
  | nil => rw [put, Assoc.get?_cons]
  | cons e rest ih =>
    obtain ⟨he, hrest⟩ := List.forall_mem_cons.mp hentries
    rw [put]
    cases hcmp : cmp key e.1 with
    | lt => exact Assoc.get?_cons same (key, value) (e :: rest) k
    | eq =>
      obtain rfl := horder.eq hkey he hcmp
      simp only [Assoc.get?_cons]
      split <;> rfl
    | gt =>
      simp only [Assoc.get?_cons, ih hrest]
      by_cases hke : same k e.1 = true
      · -- the entry in front is not the one that was stored
        have hne : ¬ same k key = true := fun h => by
          obtain rfl := hequal hk he hke
          obtain rfl := hequal hk hkey h
          simp [horder.self hk] at hcmp
        rw [if_pos hke, if_neg hne, if_pos hke]
      · rw [if_neg hke, if_neg hke]

/-- Of the values stored under a key the last is found. -/
theorem get?_putAll (horder : OrderOn cmp good)
    (hequal : ∀ {a b}, good a → good b → same a b = true → a = b)
    (hpairs : ∀ e ∈ pairs, good e.1) (hk : good k) :
    Assoc.get? same (putAll cmp [] pairs) k = Assoc.get? same pairs.reverse k :=
  Assoc.get?_storeAll (storesByKey cmp) (get?_put horder hequal) hpairs hk

end Sorted

/-! ## Keys -/

/-- Where keys that count as the same are equal, the keys that are kept are those given. -/
theorem StoresByKey.mem_keys_storeAll {clash : α → α → Bool}
    {put : List (α × β) → α → β → List (α × β)} {good : α → Prop} {pairs : List (α × β)}
    (h : StoresByKey clash put) (hequal : ∀ {a b}, good a → good b → clash a b = true → a = b)
    (hpairs : ∀ e ∈ pairs, good e.1) (x : α) :
    x ∈ (pairs.foldl (fun acc e => put acc e.1 e.2) []).map (·.1) ↔ x ∈ pairs.map (·.1) := by
  have hshared (a b : α) (ha : good a) (hb : good b) (hclash : clash a b = true) :
      a ≠ x ↔ b ≠ x := by rw [hequal ha hb hclash]
  have hother := h.forall_storeAll_iff hshared (List.nil_append pairs ▸ hpairs)
  rw [List.nil_append] at hother
  simpa using not_congr hother

/-- The keys of a sorted map are the first occurrences of those given, in some order. -/
theorem Sorted.keys_perm {cmp : α → α → Ordering} {same : α → α → Bool} {good : α → Prop}
    {pairs : List (α × β)} (horder : OrderOn cmp good) (hsame : EquivOn same good)
    (hequal : ∀ {a b}, good a → good b → same a b = true → a = b)
    (hpairs : ∀ e ∈ pairs, good e.1) :
    ((putAll cmp [] pairs).map (·.1)).Perm (firstOccurrences same (pairs.map (·.1))) := by
  have hkeys : ∀ x ∈ pairs.map (·.1), good x := List.forall_mem_map.mpr hpairs
  -- an insertion-ordered map of the same pairs has the first occurrences
  have hfirst : (Assoc.putAll same [] pairs).map (·.1) = firstOccurrences same (pairs.map (·.1)) :=
    (Assoc.keys_putAll same [] pairs).trans (Distinct.insertAll_eq_firstOccurrences hsame hkeys)
  rw [← hfirst]
  have hsorted (x : α) : x ∈ (putAll cmp [] pairs).map (·.1) ↔ x ∈ pairs.map (·.1) :=
    (storesByKey cmp).mem_keys_storeAll
      (fun ha hb h => horder.eq ha hb (beq_iff_eq.mp h)) hpairs x
  have hordered (x : α) : x ∈ (Assoc.putAll same [] pairs).map (·.1) ↔ x ∈ pairs.map (·.1) :=
    (Assoc.storesByKey same).mem_keys_storeAll hequal hpairs x
  have hascending : ((putAll cmp [] pairs).map (·.1)).Pairwise fun a b => cmp a b = .lt :=
    List.pairwise_map.mpr (ascending_putAll horder .nil (List.forall_mem_nil _) hpairs)
  have hdiffer : ((Assoc.putAll same [] pairs).map (·.1)).Pairwise fun a b => same b a = false :=
    List.pairwise_map.mpr (Assoc.putAll_keysDiffer .nil pairs)
  refine (List.perm_ext_iff_of_nodup ?_ ?_).mpr fun x => by rw [hsorted, hordered]
  · refine hascending.imp_of_mem fun {a b} ha _ hlt heq => ?_
    rw [← heq, horder.self (hkeys a ((hsorted a).mp ha))] at hlt
    cases hlt
  · refine hdiffer.imp_of_mem fun {a b} ha _ hne heq => ?_
    rw [← heq, hsame.refl (hkeys a ((hordered a).mp ha))] at hne
    cases hne

end ScriptBridge
