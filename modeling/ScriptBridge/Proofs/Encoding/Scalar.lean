import ScriptBridge.Proofs.Encoding.Agreement

/-!
# Shapes without members

A shape without members is encoded as a whole, by both encoders, and to a value that depends on
nothing but the shape. Apart from structs, only such shapes can be keys.

- `HostTree.scalar?`: the script value of a shape without members.
- `HostTree.encodeAt_of_scalar`, `HostTree.openAt_of_scalar`: what the encoders make of such a
  shape.
- `HostTree.scalar?_of_hashable`, `HostTree.scalar?_of_hashable_open`: what becomes a key had none.
-/

namespace ScriptBridge

namespace HostTree

/-- The script value of a shape without members. -/
def scalar? : HostTree → Option Value
  | nil => some .null
  | bool b => some (.bool b)
  | signed n => some (.int n)
  | unsigned n => some (.int n)
  | big n => some (.int n)
  | float x => some (.float x)
  | str s => some (.text s)
  | bytes bs => some (.bytes bs)
  | callable c => some (.callable c)
  | script v => some v
  | seq _ => none
  | map _ => none
  | struct .. => none
  | unsupported _ => none

/-- No cast on the way to a shape changes a number, since it goes to a type of the same sign that is
no narrower. -/
@[simp] theorem scalar?_ofFixed {t : IntType} (n : Fixed t) :
    (ofFixed n).scalar? = some (.int n.val) := by
  have hcast (hwidth : t.width = .bits128 → False) {s : IntType} (hs : s.width = .bits64)
      (hsign : t.signed = s.signed) : (Fixed.cast s n.val).val = n.val :=
    Fixed.reduce_of_inRange (n.inRange.mono hsign (hs ▸ IntWidth.bits_le_of_ne hwidth))
  unfold ofFixed
  split
  · split
    · next m hm => rw [scalar?, Fixed.val_of_ofInt? hm]
    · rfl
  · split
    · next m hm => rw [scalar?, Fixed.val_of_ofInt? hm]
    · rfl
  · next hsigned hwidth => rw [scalar?, hcast hwidth rfl hsigned]
  · next hsigned hwidth => rw [scalar?, hcast hwidth rfl hsigned]

variable {t : HostTree} {s w : Value} {depth : Nat}

/-- The strict encoder makes its script value of a shape without members. -/
theorem encodeAt_of_scalar (h : t.scalar? = some s) :
    encodeAt t .any depth = .ok w ↔ depth ≤ maxDepth ∧ w = s := by
  have hleaf : ∀ (t : HostTree) (v : Value), t.leaf .any v = .ok v := fun _ _ => rfl
  cases t <;> simp only [scalar?, reduceCtorEq, Option.some.injEq] at h
  all_goals
    subst h
    simp [encodeAt, hleaf, eq_comm (a := w)]

/-- The open encoder does the same once floats are collapsed. -/
theorem openAt_of_scalar (h : t.collapse.scalar? = some s) :
    openAt t depth = .ok w ↔ depth ≤ maxDepth ∧ w = s := by
  cases t with
  | float x =>
    rw [openAt, guardDepth_eq_ok, openNumber]
    rw [collapse] at h
    cases hx : x.integral? with
    | none =>
      rw [hx] at h
      cases h
      simp [eq_comm (a := w)]
    | some n =>
      rw [hx] at h
      cases h
      simp [eq_comm (a := w)]
  | _ =>
    simp only [collapse, scalar?, reduceCtorEq, Option.some.injEq] at h
    all_goals
      subst h
      simp [openAt, eq_comm (a := w)]

/-- No integer is a float that could collapse. -/
theorem scalar?_collapse_of_int {n : Int} (h : t.scalar? = some (.int n)) :
    t.collapse.scalar? = some (.int n) := by
  cases t with
  | float | seq | map | struct | unsupported => cases h
  | _ => exact h

/-- What the strict encoder makes a key of had no members, unless it was a struct. -/
theorem scalar?_of_hashable (hstruct : ∀ typeName fields, t ≠ struct typeName fields)
    (h : encodeAt t .any depth = .ok w) (hw : w.hashable = true) : t.scalar? = some w := by
  cases t with
  | seq items =>
    obtain ⟨-, vs, -, rfl⟩ := encodeAt_seq_eq_ok.mp h
    cases hw
  | map entries =>
    obtain ⟨-, pairs, -, -, rfl⟩ := encodeAt_map_eq_ok.mp h
    cases hw
  | struct typeName fields => exact absurd rfl (hstruct typeName fields)
  | unsupported name => simp [encodeAt] at h
  | _ =>
    have hscalar := (encodeAt_of_scalar rfl).mp h
    rw [hscalar.2]
    rfl

/-- What the open encoder makes a key of had no members; structs it refuses. -/
theorem scalar?_of_hashable_open (h : openAt t depth = .ok w) (hw : w.hashable = true) :
    t.collapse.scalar? = some w := by
  cases t with
  | seq items =>
    obtain ⟨-, vs, -, rfl⟩ := openAt_seq_eq_ok.mp h
    cases hw
  | map entries =>
    obtain ⟨-, pairs, -, d, -, rfl⟩ := openAt_map_eq_ok.mp h
    cases hw
  | struct typeName fields => exact absurd h openAt_struct_ne_ok
  | unsupported name => simp [openAt] at h
  | float x =>
    rw [collapse]
    rw [openAt, guardDepth_eq_ok, openNumber, Except.ok.injEq] at h
    rw [← h.2]
    cases x.integral? with
    | none => rfl
    | some n => rfl
  | _ =>
    have hscalar := (openAt_of_scalar rfl).mp h
    rw [hscalar.2]
    rfl

end HostTree

end ScriptBridge
