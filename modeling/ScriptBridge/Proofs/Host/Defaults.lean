import ScriptBridge.Proofs.Host.Inhabitants
import ScriptBridge.Proofs.Host.Typing

/-!
# Defaults have their types

Before anything is stored in a struct its fields hold the defaults of their types. A default can
contain structs, in arrays for instance, and then it was made by the declarations that there were at
the time. It has its type in the whole schema if those structs had been declared and are not
declared again.

- `HostType.embedded`: the structs that a default contains.
- `HostType.default_inhabits`: a default has its type, if those structs start with their types.
- `Schema.InOrder`: each struct is declared once, after those that its fields start with.
- `Schema.InOrder.typed`: then all fields start with values of their types.
-/

namespace ScriptBridge

variable {schema larger : Schema}

/-- The structs that the default of a type contains. -/
def HostType.embedded : HostType → List String
  | pointer t => t.embedded
  | sequence (.array _) item => item.embedded
  | struct name => [name]
  | _ => []

/-- A default has its type, if the structs that it contains start with theirs. -/
theorem HostType.default_inhabits {structs : String → HostValue} {t : HostType}
    (h : ∀ name ∈ t.embedded, (structs name).Inhabits schema (.struct name)) :
    (t.default structs).Inhabits schema t := by
  induction t with
  | pointer t ih => exact .pointer (ih h)
  | struct name => exact h name (List.mem_singleton.mpr rfl)
  | sequence kind item ih =>
    cases kind with
    | array length =>
      refine .sequence fun x hx => ?_
      rw [List.eq_of_mem_replicate hx]
      exact ih h
    | _ => exact .sequence nofun
  | mapping kind key value => exact .mapping nofun nofun
  | script => exact .script .null
  | dynamic => exact .dynamic .null
  | json =>
    refine .json fun _ _ hpart => ?_
    cases hpart with
    | deeper hmember => cases hmember
  | _ => constructor

/-- A struct has its type before anything is stored in it, if its fields start with theirs. -/
theorem StructDef.initial_inhabits {name : String}
    (h : ∀ slot ∈ (schema.lookup name).slots ++ (schema.lookup name).hidden,
      slot.initial.Inhabits schema slot.type) :
    (schema.lookup name).initial.Inhabits schema (.struct name) := by
  have hslot {slots : List Slot} (h : ∀ slot ∈ slots, slot.initial.Inhabits schema slot.type)
      (i : Nat) (x : HostValue) (slot : Slot) (hx : (slots.map (·.initial))[i]? = some x)
      (hslot : slots[i]? = some slot) : x.Inhabits schema slot.type := by
    rw [List.getElem?_map, hslot] at hx
    obtain rfl := Option.some.inj hx
    exact h slot (List.mem_of_getElem? hslot)
  exact .struct rfl (List.length_map _) (List.length_map _)
    (hslot fun slot hs => h slot (List.mem_append_left _ hs))
    (hslot fun slot hs => h slot (List.mem_append_right _ hs))

/-- Each struct is declared once, after those that its fields start with. -/
inductive Schema.InOrder : Schema → Prop
  | empty : InOrder .empty
  | declare {schema : Schema} (h : InOrder schema) {typeName : String}
      {fields : List (FieldSpec × HostType)} {unstored : List FieldSpec}
      {hidden : List (String × HostType)} (hnew : ∀ d ∈ schema, d.typeName ≠ typeName)
      (hfields : ∀ t ∈ fields.map (·.2) ++ hidden.map (·.2), ∀ name ∈ t.embedded,
        ∃ d ∈ schema, d.typeName = name) :
      InOrder (schema.declare typeName fields unstored hidden)

/-- The fields of what is declared start with values of their types, whatever is declared later
under other names. -/
theorem Schema.InOrder.slots_inhabit (h : schema.InOrder)
    (hlarger : ∀ d ∈ schema, larger.lookup d.typeName = schema.lookup d.typeName) (name : String) :
    ∀ slot ∈ (schema.lookup name).slots ++ (schema.lookup name).hidden,
      slot.initial.Inhabits larger slot.type := by
  induction h generalizing name with
  | empty => nofun
  | @declare schema _ typeName fields unstored hidden hnew hfields ih =>
    have hearlier : ∀ d ∈ schema, larger.lookup d.typeName = schema.lookup d.typeName :=
      fun d hd => by
        rw [hlarger d (List.mem_cons_of_mem _ hd), lookup_declare_of_ne (hnew d hd).symm]
    by_cases hname : typeName = name
    · subst hname
      have hslot {t : HostType} (ht : t ∈ fields.map (·.2) ++ hidden.map (·.2)) :
          (schema.slot t).initial.Inhabits larger t := by
        refine HostType.default_inhabits fun n hn => ?_
        obtain ⟨d, hd, rfl⟩ := hfields t ht n hn
        rw [← hearlier d hd]
        refine StructDef.initial_inhabits ?_
        rw [hearlier d hd]
        exact ih hearlier d.typeName
      rw [lookup_declare_self]
      intro slot hs
      rcases List.mem_append.mp hs with hs | hs
      · obtain ⟨field, hfield, rfl⟩ := List.mem_map.mp hs
        exact hslot (List.mem_append_left _ (List.mem_map_of_mem hfield))
      · obtain ⟨field, hfield, rfl⟩ := List.mem_map.mp hs
        exact hslot (List.mem_append_right _ (List.mem_map_of_mem hfield))
    · rw [lookup_declare_of_ne hname]
      exact ih hearlier name

/-- Where structs are declared in order, all fields start with values of their types. -/
theorem Schema.InOrder.typed (h : schema.InOrder) : schema.Typed :=
  h.slots_inhabit fun _ _ => rfl

end ScriptBridge
