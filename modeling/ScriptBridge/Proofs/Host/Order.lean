import ScriptBridge.Host.Order
import ScriptBridge.Proofs.Binary
import ScriptBridge.Proofs.Induction
import ScriptBridge.Proofs.Parallel
import ScriptBridge.Proofs.Traversal

/-!
# Sameness and order of host values

How the two relations on host values go together, and what they do not see of a value.

- `HostValue.eachSame_iff`, `HostValue.entriesSame_iff`: sameness of lists, member by member.
- `HostValue.compareItems_eq_compareLex`, `HostValue.compareEntries_eq_compareLex`: lists are
  compared lexicographically.
- `HostValue.compare_eq_of_same`: values that are the same are not ordered.
- `HostValue.quiet`: a value with one NaN for all 32-bit NaNs in it, which is what comes back from a
  script. Where no number is a NaN this is the value itself (`HostValue.quiet_eq_self`).
- `HostValue.same_quiet`, `HostValue.compare_quiet`: neither relation sees the difference.
-/

namespace ScriptBridge

namespace HostValue

/-! ## Members -/

theorem eachSame_iff {as bs : List HostValue} :
    eachSame as bs = true ↔ List.Forall₂ (fun a b => same a b = true) as bs :=
  each_eq_true_iff eachSame rfl (fun _ _ => rfl) (fun _ _ => rfl) fun _ _ _ _ => by
    rw [eachSame, Bool.and_eq_true]

theorem entriesSame_iff {as bs : List (HostValue × HostValue)} :
    entriesSame as bs = true ↔
      List.Forall₂ (fun a b => same a.1 b.1 = true ∧ same a.2 b.2 = true) as bs :=
  each_eq_true_iff entriesSame rfl (fun _ _ => rfl) (fun _ _ => rfl) fun _ _ _ _ => by
    rw [entriesSame, Bool.and_eq_true, Bool.and_eq_true, and_assoc]

theorem compareItems_eq_compareLex {as bs : List HostValue} :
    compareItems as bs = List.compareLex compare as bs :=
  eq_compareLex_of_cons compareItems rfl (fun _ _ => rfl) (fun _ _ => rfl) fun _ _ _ _ => rfl

/-- The comparison of two entries: their keys, and their values where the keys do not decide. -/
def compareEntry (a b : HostValue × HostValue) : Ordering :=
  (compare a.1 b.1).then (compare a.2 b.2)

theorem compareEntries_eq_compareLex {as bs : List (HostValue × HostValue)} :
    compareEntries as bs = List.compareLex compareEntry as bs :=
  eq_compareLex_of_cons compareEntries rfl (fun _ _ => rfl) (fun _ _ => rfl) fun _ _ _ _ => by
    rw [compareEntries, compareEntry, Ordering.then_assoc]

/-! ## Sameness and order -/

theorem compareItems_eq_of_eachSame {as bs : List HostValue}
    (ih : ∀ a ∈ as, ∀ b, same a b = true → compare a b = .eq) (h : eachSame as bs = true) :
    compareItems as bs = .eq := by
  rw [compareItems_eq_compareLex, compareLex_eq_eq_iff]
  exact forall₂_imp_of_mem (eachSame_iff.mp h) fun a ha b _ => ih a ha b

theorem compareEntries_eq_of_entriesSame {as bs : List (HostValue × HostValue)}
    (ih : ∀ a ∈ as, (∀ b, same a.1 b = true → compare a.1 b = .eq) ∧
      ∀ b, same a.2 b = true → compare a.2 b = .eq) (h : entriesSame as bs = true) :
    compareEntries as bs = .eq := by
  rw [compareEntries_eq_compareLex, compareLex_eq_eq_iff]
  refine forall₂_imp_of_mem (entriesSame_iff.mp h) fun a ha b _ hab => ?_
  exact Ordering.then_eq_eq.mpr ⟨(ih a ha).1 b.1 hab.1, (ih a ha).2 b.2 hab.2⟩

/-- Values that are the same are not ordered. -/
theorem compare_eq_of_same {v w : HostValue} (h : same v w = true) : compare v w = .eq := by
  induction v generalizing w with
  | some v ih =>
    cases w with
    | some w =>
      rw [same] at h
      rw [compare, ih h]
    | _ => simp [same] at h
  | sequence kind items ih =>
    cases w with
    | sequence kind' items' =>
      simp only [same, Bool.and_eq_true] at h
      rw [compare, compareItems_eq_of_eachSame (fun a ha b => ih a ha) h.2]
    | _ => simp [same] at h
  | mapping kind entries ih =>
    cases w with
    | mapping kind' entries' =>
      simp only [same, Bool.and_eq_true] at h
      rw [compare, compareEntries_eq_of_entriesSame
        (fun a ha => ⟨fun b => (ih a ha).1, fun b => (ih a ha).2⟩) h.2]
    | _ => simp [same] at h
  | struct decl stored hidden ihstored ihhidden =>
    cases w with
    | struct decl' stored' hidden' =>
      simp only [same, Bool.and_eq_true] at h
      rw [compare, compareItems_eq_of_eachSame (fun a ha b => ihstored a ha) h.2.1,
        compareItems_eq_of_eachSame (fun a ha b => ihhidden a ha) h.2.2]
      rfl
    | _ => simp [same] at h
  | _ =>
    -- values without members are the same when their parts are equal
    cases w <;> simp_all [same, compare]

/-! ## One NaN for all -/

mutual

/-- The value with one NaN for all 32-bit NaNs in it. Fields that are the host's alone are left as
they are. -/
def quiet : HostValue → HostValue
  | single x => single x.quiet
  | some v => some (quiet v)
  | sequence kind items => sequence kind (quietItems items)
  | mapping kind entries => mapping kind (quietEntries entries)
  | struct decl stored hidden => struct decl (quietItems stored) hidden
  | v => v

def quietItems : List HostValue → List HostValue
  | [] => []
  | v :: rest => quiet v :: quietItems rest

def quietEntries : List (HostValue × HostValue) → List (HostValue × HostValue)
  | [] => []
  | (k, v) :: rest => (quiet k, quiet v) :: quietEntries rest

end

theorem quietItems_eq_map (items : List HostValue) : quietItems items = items.map quiet :=
  eq_map_of_cons quietItems rfl fun _ _ => rfl

theorem quietEntries_eq_map (entries : List (HostValue × HostValue)) :
    quietEntries entries = entries.map fun e => (e.1.quiet, e.2.quiet) :=
  eq_map_of_cons quietEntries rfl fun _ _ => rfl

/-- Where no 32-bit number is a NaN, nothing changes. -/
theorem quiet_eq_self {v : HostValue} (h : ∀ x, Inside (.single x) v → x.isNaN = false) :
    v.quiet = v := by
  induction v with
  | single x =>
    have hx : x.isNaN = false := h x (.self _)
    rw [quiet, Binary.quiet, hx]
    rfl
  | some v ih =>
    rw [quiet, ih fun x hx => h x (.some hx)]
  | sequence kind items ih =>
    have hitems : items.map quiet = items := by
      refine (List.map_congr_left fun v hv => ?_).trans (List.map_id items)
      exact ih v hv fun x hx => h x (.item hv hx)
    rw [quiet, quietItems_eq_map, hitems]
  | mapping kind entries ih =>
    have hentries : (entries.map fun e => (e.1.quiet, e.2.quiet)) = entries := by
      refine (List.map_congr_left fun e he => ?_).trans (List.map_id entries)
      rw [(ih e he).1 fun x hx => h x (.key he hx), (ih e he).2 fun x hx => h x (.value he hx)]
      rfl
    rw [quiet, quietEntries_eq_map, hentries]
  | struct decl stored hidden ih _ =>
    have hstored : stored.map quiet = stored := by
      refine (List.map_congr_left fun v hv => ?_).trans (List.map_id stored)
      exact ih v hv fun x hx => h x (.field hv hx)
    rw [quiet, quietItems_eq_map, hstored]
  | _ => rfl

theorem eachSame_quietItems {as bs : List HostValue}
    (ih : ∀ a ∈ as, ∀ b, same a.quiet b.quiet = same a b) :
    eachSame (quietItems as) (quietItems bs) = eachSame as bs := by
  rw [quietItems_eq_map, quietItems_eq_map, Bool.eq_iff_iff, eachSame_iff, eachSame_iff,
    List.forall₂_map_left_iff, List.forall₂_map_right_iff]
  exact forall₂_iff_of_mem fun a ha b _ => by rw [ih a ha]

theorem entriesSame_quietEntries {as bs : List (HostValue × HostValue)}
    (ih : ∀ a ∈ as, (∀ b, same a.1.quiet b.quiet = same a.1 b) ∧
      ∀ b, same a.2.quiet b.quiet = same a.2 b) :
    entriesSame (quietEntries as) (quietEntries bs) = entriesSame as bs := by
  rw [quietEntries_eq_map, quietEntries_eq_map, Bool.eq_iff_iff, entriesSame_iff, entriesSame_iff,
    List.forall₂_map_left_iff, List.forall₂_map_right_iff]
  exact forall₂_iff_of_mem fun a ha b _ => by rw [(ih a ha).1, (ih a ha).2]

/-- Sameness does not see which NaN a number is. -/
theorem same_quiet (v w : HostValue) : same v.quiet w.quiet = same v w := by
  induction v generalizing w with
  | single x =>
    cases w with
    | single y => exact Binary.same_quiet x y
    | _ => rfl
  | some v ih =>
    cases w with
    | some w => exact ih w
    | _ => rfl
  | sequence kind items ih =>
    cases w with
    | sequence kind' items' =>
      rw [quiet, quiet, same, same, eachSame_quietItems fun a ha b => ih a ha b]
    | _ => rfl
  | mapping kind entries ih =>
    cases w with
    | mapping kind' entries' =>
      rw [quiet, quiet, same, same, entriesSame_quietEntries ih]
    | _ => rfl
  | struct decl stored hidden ihstored _ =>
    cases w with
    | struct decl' stored' hidden' =>
      rw [quiet, quiet, same, same, eachSame_quietItems fun a ha b => ihstored a ha b]
    | _ => rfl
  | _ => cases w <;> rfl

theorem compareItems_quietItems {as bs : List HostValue}
    (ih : ∀ a ∈ as, ∀ b, compare a.quiet b.quiet = compare a b) :
    compareItems (quietItems as) (quietItems bs) = compareItems as bs := by
  rw [compareItems_eq_compareLex, compareItems_eq_compareLex, quietItems_eq_map, quietItems_eq_map]
  exact compareLex_map fun a ha b _ => ih a ha b

theorem compareEntries_quietEntries {as bs : List (HostValue × HostValue)}
    (ih : ∀ a ∈ as, (∀ b, compare a.1.quiet b.quiet = compare a.1 b) ∧
      ∀ b, compare a.2.quiet b.quiet = compare a.2 b) :
    compareEntries (quietEntries as) (quietEntries bs) = compareEntries as bs := by
  rw [compareEntries_eq_compareLex, compareEntries_eq_compareLex, quietEntries_eq_map,
    quietEntries_eq_map]
  refine compareLex_map fun a ha b _ => ?_
  rw [compareEntry, compareEntry, (ih a ha).1, (ih a ha).2]

/-- The order does not see which NaN a number is. -/
theorem compare_quiet (v w : HostValue) : compare v.quiet w.quiet = compare v w := by
  induction v generalizing w with
  | some v ih =>
    cases w with
    | some w => exact ih w
    | _ => rfl
  | sequence kind items ih =>
    cases w with
    | sequence kind' items' =>
      rw [quiet, quiet, compare, compare, compareItems_quietItems fun a ha b => ih a ha b]
    | _ => rfl
  | mapping kind entries ih =>
    cases w with
    | mapping kind' entries' =>
      rw [quiet, quiet, compare, compare, compareEntries_quietEntries ih]
    | _ => rfl
  | struct decl stored hidden ihstored _ =>
    cases w with
    | struct decl' stored' hidden' =>
      rw [quiet, quiet, compare, compare, compareItems_quietItems fun a ha b => ihstored a ha b]
    | _ => rfl
  | _ => cases w <;> rfl

end HostValue

end ScriptBridge
