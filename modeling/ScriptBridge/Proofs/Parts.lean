import ScriptBridge.Host.Tree
import ScriptBridge.Proofs.Parallel

/-!
# Parts, and how many containers enclose them

Script values, shapes and documents are trees. What a conversion does to a tree depends on its
parts and on how deep they stand, so that both are counted in one relation, over whatever the
members of a tree are taken to be.

- `Part`: a part of a tree, together with the number of containers around it.
- `Part.transport`: trees whose members correspond have parts that do, at the same depth.
- `partAt?`: the part at a place, and `partAt?_rel`: trees whose members correspond have
  corresponding parts at each place.
- `NestedWithin`: no part is enclosed by more than so many containers. `NestedWithin.of_mem` and
  `NestedWithin.of_forall_mem` go down to the members and up from them.
- `keysAndValues`: what entries are made of, with `keysAndValues_getElem?_key` and
  `keysAndValues_getElem?_value` for its places.
- `HostTree.members`, `Value.members`, `Dynamic.members`, `Json.members`: the members of one tree.
-/

namespace ScriptBridge

section

variable {α β : Type} {members : α → List α} {n : Nat} {part whole : α}

/-- The first tree is a part of the second, below so many containers: the tree itself, or a part of
a member. -/
inductive Part (members : α → List α) : Nat → α → α → Prop
  | self (whole : α) : Part members 0 whole whole
  | deeper {n : Nat} {part member whole : α} (hmember : member ∈ members whole)
      (h : Part members n part member) : Part members (n + 1) part whole

/-- Where members correspond, so do parts. -/
theorem Part.transport {members' : β → List β} {r : α → β → Prop} {whole' : β}
    (hmembers : ∀ a b, r a b → List.Forall₂ r (members a) (members' b))
    (h : Part members n part whole) (hwhole : r whole whole') :
    ∃ part', Part members' n part' whole' ∧ r part part' := by
  induction h generalizing whole' with
  | self => exact ⟨whole', .self whole', hwhole⟩
  | deeper hmember _ ih =>
    obtain ⟨member', hmember', hr⟩ := forall₂_exists_right (hmembers _ _ hwhole) _ hmember
    obtain ⟨part', hpart', hr⟩ := ih hr
    exact ⟨part', .deeper hmember' hpart', hr⟩

/-- The part that a path leads to, which says at each level which member to go to. -/
def partAt? (members : α → List α) : List Nat → α → Option α
  | [], whole => some whole
  | i :: path, whole => (members whole)[i]?.bind (partAt? members path)

/-- Where members correspond, so do the parts at the end of one path. -/
theorem partAt?_rel {members' : β → List β} {r : α → β → Prop} {whole' : β}
    (hmembers : ∀ a b, r a b → List.Forall₂ r (members a) (members' b)) (hwhole : r whole whole')
    (path : List Nat) :
    Option.Rel r (partAt? members path whole) (partAt? members' path whole') := by
  induction path generalizing whole whole' with
  | nil => exact .some hwhole
  | cons i path ih =>
    have hmember := forall₂_getElem? (hmembers _ _ hwhole) i
    rw [partAt?, partAt?]
    generalize (members whole)[i]? = member, (members' whole')[i]? = member' at hmember
    cases hmember with
    | none => exact .none
    | some h => exact ih h

/-- No part of a tree is enclosed by more than so many containers. -/
def NestedWithin (members : α → List α) (limit : Nat) (whole : α) : Prop :=
  ∀ n part, Part members n part whole → n ≤ limit

/-- A container takes one level, which its members cannot use. -/
theorem NestedWithin.of_mem {limit : Nat} {member : α} (h : NestedWithin members limit whole)
    (hmember : member ∈ members whole) :
    ∃ below, limit = below + 1 ∧ NestedWithin members below member := by
  have hone := h 1 member (.deeper hmember (.self _))
  refine ⟨limit - 1, by omega, fun n part hpart => ?_⟩
  have hle := h (n + 1) part (.deeper hmember hpart)
  omega

/-- A container stands one level above its members. -/
theorem NestedWithin.of_forall_mem {limit : Nat}
    (h : ∀ member ∈ members whole, NestedWithin members limit member) :
    NestedWithin members (limit + 1) whole := by
  intro n part hpart
  cases hpart with
  | self => exact Nat.zero_le _
  | deeper hmember hpart => exact Nat.succ_le_succ (h _ hmember _ _ hpart)

end

/-! ## Members -/

section

variable {α β : Type} {entries : List (α × α)}

/-- The keys and values of entries, each key before its value. -/
def keysAndValues (entries : List (α × α)) : List α := entries.flatMap fun e => [e.1, e.2]

theorem mem_keysAndValues {a : α} :
    a ∈ keysAndValues entries ↔ ∃ e ∈ entries, a = e.1 ∨ a = e.2 := by
  simp [keysAndValues]

theorem key_mem_keysAndValues {e : α × α} (he : e ∈ entries) : e.1 ∈ keysAndValues entries :=
  mem_keysAndValues.mpr ⟨e, he, .inl rfl⟩

theorem value_mem_keysAndValues {e : α × α} (he : e ∈ entries) : e.2 ∈ keysAndValues entries :=
  mem_keysAndValues.mpr ⟨e, he, .inr rfl⟩

theorem keysAndValues_map (f : α → β) :
    keysAndValues (entries.map fun e => (f e.1, f e.2)) = (keysAndValues entries).map f := by
  simp [keysAndValues, List.flatMap_map, List.map_flatMap]

/-- The keys stand at the even places. -/
theorem keysAndValues_getElem?_key (i : Nat) :
    (keysAndValues entries)[2 * i]? = entries[i]?.map (·.1) := by
  induction entries generalizing i with
  | nil => rfl
  | cons e rest ih =>
    cases i with
    | zero => rfl
    | succ i => exact ih i

/-- Each value stands after its key. -/
theorem keysAndValues_getElem?_value (i : Nat) :
    (keysAndValues entries)[2 * i + 1]? = entries[i]?.map (·.2) := by
  induction entries generalizing i with
  | nil => rfl
  | cons e rest ih =>
    cases i with
    | zero => rfl
    | succ i => exact ih i

/-- Entries whose keys and values correspond. -/
theorem forall₂_keysAndValues {r : α → β → Prop} {entries' : List (β × β)}
    (h : List.Forall₂ (fun e e' => r e.1 e'.1 ∧ r e.2 e'.2) entries entries') :
    List.Forall₂ r (keysAndValues entries) (keysAndValues entries') := by
  induction h with
  | nil => exact .nil
  | cons he _ ih => exact .cons he.1 (.cons he.2 ih)

end

namespace HostTree

/-- Items, keys and values, or fields. Script values inside a shape are leaves of it. -/
def members : HostTree → List HostTree
  | seq items => items
  | map entries => keysAndValues entries
  | struct _ fields => fields.map (·.2)
  | _ => []

end HostTree

namespace Value

/-- Elements, keys and values, or attributes. -/
def members : Value → List Value
  | list items => items
  | tuple items => items
  | set items => items
  | dict entries => keysAndValues entries
  | record _ attrs => attrs.map (·.2)
  | _ => []

end Value

namespace Dynamic

/-- Items, or keys and values. -/
def members : Dynamic → List Dynamic
  | list items => items
  | map entries => keysAndValues entries
  | _ => []

end Dynamic

namespace Json

/-- Items, or what the members of an object hold. -/
def members : Json → List Json
  | arr items => items
  | obj members => members.map (·.2)
  | _ => []

end Json

end ScriptBridge
