import ScriptBridge.Proofs.Encoding.Documents
import ScriptBridge.Proofs.Equivalence

/-!
# Equality of documents is an equivalence

Documents are compared as dynamic values are, only that the names of members are texts, so that no
name can be taken for another one. What has to be known of a document is that its objects have each
name once.

- `Json.arr_same_iff`, `Json.obj_same_iff`: equality as a relation on the parts of documents.
- `Json.NamesDiffer.same_self`, `Json.NamesDiffer.equivAt`: equality is an equivalence.
-/

namespace ScriptBridge

namespace Json

variable {j : Json} {items : List Json} {members : List (String × Json)}

/-! ## Equality as a relation -/

/-- Equality as a relation. -/
def Same (j k : Json) : Prop := same j k = true

theorem eachSame_iff {as bs : List Json} : eachSame as bs = true ↔ List.Forall₂ Same as bs :=
  each_eq_true_iff eachSame rfl (fun _ _ => rfl) (fun _ _ => rfl) fun _ _ _ _ => by
    rw [eachSame, Bool.and_eq_true, Same]

theorem arr_same_iff {as bs : List Json} :
    same (arr as) (arr bs) = true ↔ List.Forall₂ Same as bs := by
  rw [same, eachSame_iff]

theorem membersWithin_iff {as bs : List (String × Json)} :
    membersWithin as bs = true ↔ ∀ a ∈ as, ∃ b,
      bs.find? (fun e => a.1 == e.1) = some b ∧ same a.2 b.2 = true :=
  Assoc.within_iff (fun _ => rfl) fun (name, v) _ bs => by
    rw [membersWithin]
    cases bs.find? fun e => name == e.1 <;> rfl

theorem obj_same_iff {as bs : List (String × Json)} :
    same (obj as) (obj bs) = true ↔ SameMap (· == ·) Same as bs := by
  rw [same, Bool.and_eq_true, beq_iff_eq, membersWithin_iff]
  exact ⟨fun h => ⟨h.1, h.2⟩, fun h => ⟨h.length, h.found⟩⟩

/-- What a document without members is compared by. -/
def scalar? : Json → Option Value
  | null => some .null
  | bool b => some (.bool b)
  | int n => some (.int n.val)
  | float x => some (.float x.val.canonical)
  | str s => some (.text s)
  | _ => none

theorem same_iff_of_scalar {k : Json} {s : Value} (hj : j.scalar? = some s) :
    same j k = true ↔ k.scalar? = some s := by
  cases j <;> cases hj <;> cases k <;> simp [same, scalar?, Binary.same]
  all_goals exact eq_comm

theorem same_iff_of_scalar_right {k : Json} {s : Value} (hk : k.scalar? = some s) :
    same j k = true ↔ j.scalar? = some s := by
  cases k <;> cases hk <;> cases j <;> simp [same, scalar?, Binary.same]

theorem equivAt_of_scalar {s : Value} (hj : j.scalar? = some s) : EquivAt Same NamesDiffer j :=
  .of_key hj same_iff_of_scalar same_iff_of_scalar_right

/-! ## Documents that have each name once -/

theorem NamesDiffer.of_mem_arr (h : (arr items).NamesDiffer) : ∀ j ∈ items, j.NamesDiffer :=
  fun _ hj => h.of_mem hj

theorem NamesDiffer.soundMap (h : (obj members).NamesDiffer) :
    SoundMap (· == ·) (fun _ => True) NamesDiffer members :=
  ⟨fun _ hm => ⟨trivial, h.of_mem (value_mem_members hm)⟩, Assoc.keysDiffer_iff_nodup.mpr h.nodup⟩

/-- Every document is equal to itself whose objects find their own names. -/
theorem NamesDiffer.same_self (h : j.NamesDiffer) : same j j = true := by
  induction j with
  | arr items ih =>
    exact arr_same_iff.mpr (List.forall₂_same.mpr fun j hj => ih j hj (h.of_mem_arr j hj))
  | obj members ih =>
    refine obj_same_iff.mpr ⟨rfl, fun m hm => ?_⟩
    exact ⟨m, h.soundMap.2.find?_self hm (beq_self_eq_true _), ih m hm (h.soundMap.1 m hm).2⟩
  | _ => exact (same_iff_of_scalar rfl).mpr rfl

/-- Equality is an equivalence at every document that has each name once. -/
theorem NamesDiffer.equivAt (h : j.NamesDiffer) : EquivAt Same NamesDiffer j := by
  induction j with
  | arr items ih =>
    exact .of_iff arr (.forall₂ fun j hj => ih j hj (h.of_mem_arr j hj)) h of_mem_arr
      (fun {y b} hb => by cases b <;> simp_all [Same, same]) arr_same_iff
  | obj members ih =>
    exact .of_iff obj
      (.maps (fun _ _ => EquivOn.beq.equivAt trivial)
        (fun m hm => ih m hm (h.soundMap.1 m hm).2) h.soundMap) h soundMap
      (fun {y b} hb => by cases b <;> simp_all [Same, same]) obj_same_iff
  | _ => exact equivAt_of_scalar rfl

end Json

end ScriptBridge
