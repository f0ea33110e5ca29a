import ScriptBridge.Encoding.Strict
import ScriptBridge.Host.Schema
import ScriptBridge.Proofs.Assoc
import ScriptBridge.Proofs.Host.Order

/-!
# Which values a host type has

A judgment over host values and types, with what the host's own containers keep true of their
members, and the conditions on structs under which records can be read back.

- `SequenceKind.Holds`, `MappingKind.Holds`: what a container keeps true of its members. Collecting
  members of which that is true changes nothing (`SequenceKind.collect_of_holds`,
  `MappingKind.collect_of_holds`).
- `HostValue.HasType`: the values of a type.
- `StructDef.Regular`: a struct whose attributes find their own fields. Of a declared struct only
  the attribute names have to be looked at (`Schema.Declared.regular`).
- `HostValue.Recoverable`: a value that scripts can hold without loss.

Reduced integers, dynamic values and documents are not in the judgment: what they hold is told by no
type, and reading it back may choose another form of the same content.
-/

namespace ScriptBridge

/-! ## Containers -/

/-- What a sequence keeps true of its items. -/
def SequenceKind.Holds (kind : SequenceKind) (items : List HostValue) : Prop :=
  match kind with
  | vector => True
  | array length => items.length = length
  | hashSet => items.Pairwise fun earlier later => later.same earlier = false
  | sortedSet => items.Pairwise fun earlier later => later.compare earlier = .gt

/-- What a map keeps true of its entries: keys differ, and ascend where they are sorted. -/
def MappingKind.Holds (kind : MappingKind) (entries : List (HostValue × HostValue)) : Prop :=
  match kind with
  | hashMap => Assoc.KeysDiffer HostValue.same entries
  | sortedMap => entries.Pairwise fun earlier later => later.1.compare earlier.1 = .gt
  | orderedMap => Assoc.KeysDiffer HostValue.same entries

/-- A sequence collects its own items into itself. -/
theorem SequenceKind.collect_of_holds {kind : SequenceKind} {items : List HostValue}
    (h : kind.Holds items) : kind.collect items = items := by
  cases kind with
  | vector => rfl
  | array length => rfl
  | hashSet => exact Distinct.insertAll_of_differ h
  | sortedSet =>
    have hascending : (items.map fun x => (x, ())).Pairwise fun earlier later =>
        HostValue.compare later.1 earlier.1 = .gt := List.pairwise_map.mpr h
    show (Sorted.putAll HostValue.compare [] (items.map fun x => (x, ()))).map (·.1) = items
    rw [Sorted.putAll_of_ascending hascending, List.map_map]
    exact List.map_id items

/-- A map collects its own entries into itself. -/
theorem MappingKind.collect_of_holds {kind : MappingKind} {entries : List (HostValue × HostValue)}
    (h : kind.Holds entries) : kind.collect entries = entries := by
  cases kind with
  | hashMap => exact Assoc.putAll_of_keysDiffer h
  | sortedMap => exact Sorted.putAll_of_ascending h
  | orderedMap => exact Assoc.putAll_of_keysDiffer h

/-- Keys that ascend differ, so the keys of every map do. -/
theorem MappingKind.Holds.keysDiffer {kind : MappingKind} {entries : List (HostValue × HostValue)}
    (h : kind.Holds entries) : Assoc.KeysDiffer HostValue.same entries := by
  cases kind with
  | hashMap => exact h
  | orderedMap => exact h
  | sortedMap =>
    refine List.Pairwise.imp (fun {earlier later} hgt => ?_) h
    rw [← Bool.not_eq_true]
    intro hsame
    rw [HostValue.compare_eq_of_same hsame] at hgt
    cases hgt

/-- What containers keep true does not depend on which NaN a number is. -/
theorem SequenceKind.Holds.quiet {kind : SequenceKind} {items : List HostValue}
    (h : kind.Holds items) : kind.Holds (items.map HostValue.quiet) := by
  cases kind with
  | vector => trivial
  | array length => exact (List.length_map _).trans h
  | hashSet => exact List.Pairwise.map _ (fun x y hxy => (HostValue.same_quiet y x).trans hxy) h
  | sortedSet =>
    exact List.Pairwise.map _ (fun x y hxy => (HostValue.compare_quiet y x).trans hxy) h

theorem MappingKind.Holds.quiet {kind : MappingKind} {entries : List (HostValue × HostValue)}
    (h : kind.Holds entries) : kind.Holds (entries.map fun e => (e.1.quiet, e.2.quiet)) := by
  have hdiffer (h : Assoc.KeysDiffer HostValue.same entries) :
      Assoc.KeysDiffer HostValue.same (entries.map fun e => (e.1.quiet, e.2.quiet)) :=
    List.Pairwise.map _ (fun x y hxy => (HostValue.same_quiet y.1 x.1).trans hxy) h
  cases kind with
  | hashMap => exact hdiffer h
  | orderedMap => exact hdiffer h
  | sortedMap =>
    exact List.Pairwise.map _ (fun x y hxy => (HostValue.compare_quiet y.1 x.1).trans hxy) h

/-! ## The judgment -/

/-- The values of a type. A struct has as many fields with storage as its definition says, each with
a value of its type. -/
inductive HostValue.HasType (schema : Schema) : HostValue → HostType → Prop
  | bool (b : Bool) : HasType schema (.bool b) .bool
  | int (t : IntType) (n : Fixed t) : HasType schema (.int t n) (.int t)
  | bigInt (n : Int) : HasType schema (.bigInt n) .bigInt
  | single (x : Binary32) : HasType schema (.single x) .single
  | double (x : Binary64) : HasType schema (.double x) .double
  | string (s : String) : HasType schema (.string s) .string
  | char (c : Char) : HasType schema (.char c) .char
  | bytes (bs : List UInt8) : HasType schema (.bytes bs) .bytes
  | callable (c : Callable) : HasType schema (.callable c) .callable
  | script (v : Value) : HasType schema (.script v) .script
  | pointer {v : HostValue} {t : HostType} (h : HasType schema v t) : HasType schema v (.pointer t)
  | none (t : HostType) : HasType schema .none (.option t)
  | some {v : HostValue} {t : HostType} (h : HasType schema v t) :
      HasType schema (.some v) (.option t)
  | sequence {kind : SequenceKind} {items : List HostValue} {item : HostType}
      (h : ∀ x ∈ items, HasType schema x item) (hkind : kind.Holds items) :
      HasType schema (.sequence kind items) (.sequence kind item)
  | mapping {kind : MappingKind} {entries : List (HostValue × HostValue)} {key value : HostType}
      (hkeys : ∀ e ∈ entries, HasType schema e.1 key)
      (hvalues : ∀ e ∈ entries, HasType schema e.2 value) (hkind : kind.Holds entries) :
      HasType schema (.mapping kind entries) (.mapping kind key value)
  | struct {name : String} {stored hidden : List HostValue}
      (hlength : stored.length = (schema.lookup name).slots.length)
      (h : ∀ (i : Nat) (x : HostValue) (slot : Slot), stored[i]? = .some x →
        (schema.lookup name).slots[i]? = .some slot → HasType schema x slot.type) :
      HasType schema (.struct (schema.lookup name).decl stored hidden) (.struct name)

/-! ## Structs whose records can be read back -/

/-- What is found under a name has the name. -/
theorem Schema.lookup_typeName (schema : Schema) (name : String) :
    (schema.lookup name).typeName = name := by
  rw [lookup]
  cases h : schema.find? (·.typeName == name) with
  | none => rfl
  | some d => simpa using List.find?_some h

/-- A struct whose attributes find their own fields. -/
structure StructDef.Regular (d : StructDef) : Prop where
  /-- Only entries of the table have storage. -/
  storage : d.slots.length ≤ d.table.length
  /-- The attribute name of every entry resolves to that entry. -/
  resolves : ∀ (i : Nat) (spec : FieldSpec), d.table[i]? = some spec →
    resolveAttr d.table spec.attrName = some i
  /-- The fields that are the host's alone start with values that are the same as themselves. -/
  hidden_same : HostValue.eachSame d.initialHidden d.initialHidden = true

/-! ## Declared structs -/

/-- The default of a type is the same as itself, if the defaults of structs are. -/
theorem HostType.default_same {structs : String → HostValue}
    (h : ∀ name, (structs name).same (structs name) = true) (t : HostType) :
    (t.default structs).same (t.default structs) = true := by
  induction t with
  | pointer t ih => exact ih
  | struct name => exact h name
  | sequence kind item ih =>
    cases kind with
    | array length =>
      have hitems : List.Forall₂ (fun a b => HostValue.same a b = true)
          (List.replicate length (item.default structs))
          (List.replicate length (item.default structs)) :=
        List.forall₂_same.mpr fun x hx => by rw [List.eq_of_mem_replicate hx]; exact ih
      simp [HostType.default, HostValue.same, HostValue.eachSame_iff.mpr hitems]
    | _ => rfl
  | mapping kind key value => cases kind <;> rfl
  | _ => simp [HostType.default, HostValue.same, Binary.same, Value.same, Dynamic.same, Json.same]

/-- The schemas that declarations build, one after the other. -/
inductive Schema.Declared : Schema → Prop
  | empty : Declared .empty
  | declare {schema : Schema} (h : Declared schema) (typeName : String)
      (fields : List (FieldSpec × HostType)) (unstored : List FieldSpec)
      (hidden : List (String × HostType)) :
      Declared (schema.declare typeName fields unstored hidden)

section Declare

variable {schema : Schema} {typeName name : String} {fields : List (FieldSpec × HostType)}
  {unstored : List FieldSpec} {hidden : List (String × HostType)}

theorem Schema.lookup_declare_self :
    (schema.declare typeName fields unstored hidden).lookup typeName =
      ⟨⟨typeName, fields.map (·.1) ++ unstored, hidden.map (·.1)⟩,
        fields.map fun field => schema.slot field.2,
        hidden.map fun field => schema.slot field.2⟩ := by
  simp [lookup, declare, StructDef.typeName]

theorem Schema.lookup_declare_of_ne (h : typeName ≠ name) :
    (schema.declare typeName fields unstored hidden).lookup name = schema.lookup name := by
  simp [lookup, declare, StructDef.typeName, h]

end Declare

namespace Schema.Declared

variable {schema : Schema}

/-- In a declared schema every struct starts as something that is the same as itself, and only
entries of its table have storage. -/
theorem lookup (h : Declared schema) (name : String) :
    (schema.lookup name).initial.same (schema.lookup name).initial = true ∧
      (schema.lookup name).slots.length ≤ (schema.lookup name).table.length := by
  induction h generalizing name with
  | empty => simp [Schema.lookup, Schema.empty, StructDef.empty, StructDef.initial,
      StructDef.initialStored, StructDef.initialHidden, HostValue.same, HostValue.eachSame]
  | @declare schema _ typeName fields unstored hidden ih =>
    by_cases hname : typeName = name
    · subst hname
      -- each slot starts with the default of its type, by the structs declared before
      have hslot (t : HostType) : (schema.slot t).initial.same (schema.slot t).initial = true :=
        t.default_same fun name => (ih name).1
      rw [lookup_declare_self]
      refine ⟨?_, by simp [StructDef.table]⟩
      simp only [StructDef.initial, StructDef.initialStored, StructDef.initialHidden,
        HostValue.same, beq_self_eq_true, Bool.true_and, Bool.and_eq_true, HostValue.eachSame_iff,
        List.forall₂_same, List.map_map, List.mem_map, Function.comp_apply, forall_exists_index,
        and_imp, forall_apply_eq_imp_iff₂, hslot, implies_true, and_self]
    · rw [lookup_declare_of_ne hname]
      exact ih name

/-- A declared struct is regular when its attribute names resolve. -/
theorem regular (h : Declared schema) {name : String}
    (hresolves : ∀ (i : Nat) (spec : FieldSpec), (schema.lookup name).table[i]? = some spec →
      resolveAttr (schema.lookup name).table spec.attrName = some i) :
    (schema.lookup name).Regular := by
  obtain ⟨hinitial, hstorage⟩ := h.lookup name
  simp only [StructDef.initial, HostValue.same, Bool.and_eq_true] at hinitial
  exact ⟨hstorage, hresolves, hinitial.2.2⟩

end Schema.Declared

namespace HostValue

/-- A value that scripts can hold without loss. -/
structure Recoverable (schema : Schema) (v : HostValue) : Prop where
  /-- Nothing that is present looks absent to scripts. -/
  present : ∀ x, Inside (.some x) v → encode x.tree .any ≠ .ok .null
  /-- Every struct inside is regular. -/
  regular : ∀ decl stored hidden, Inside (.struct decl stored hidden) v →
    (schema.lookup decl.typeName).Regular
  /-- Fields that are the host's alone hold what they start with. -/
  hidden : ∀ decl stored hidden, Inside (.struct decl stored hidden) v →
    hidden = (schema.lookup decl.typeName).initialHidden

namespace Recoverable

variable {schema : Schema}

/-- What is inside a recoverable value is recoverable. -/
theorem inside {v w : HostValue} (h : Recoverable schema w) (hvw : Inside v w) :
    Recoverable schema v where
  present x hx := h.present x (hx.trans hvw)
  regular decl stored hidden hs := h.regular decl stored hidden (hs.trans hvw)
  hidden decl stored hidden hs := h.hidden decl stored hidden (hs.trans hvw)

/-- A recoverable struct is regular and holds the defaults of its host-only fields. -/
theorem struct {name : String} {stored hidden : List HostValue}
    (h : Recoverable schema (.struct (schema.lookup name).decl stored hidden)) :
    (schema.lookup name).Regular ∧ hidden = (schema.lookup name).initialHidden := by
  have hname : (schema.lookup name).decl.typeName = name := schema.lookup_typeName name
  have hregular := h.regular _ _ _ (.self _)
  have hhidden := h.hidden _ _ _ (.self _)
  rw [hname] at hregular hhidden
  exact ⟨hregular, hhidden⟩

end Recoverable

end HostValue

end ScriptBridge
