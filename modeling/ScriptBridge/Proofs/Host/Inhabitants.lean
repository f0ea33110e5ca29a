import ScriptBridge.Host.Schema
import ScriptBridge.Proofs.Dynamic.Equality
import ScriptBridge.Proofs.Host.Order
import ScriptBridge.Proofs.Json.Equality

/-!
# Sameness among the values of a type

Which values a map takes for one key is a matter of sameness, and sameness looks into all that a key
is made of: script values, dynamic values and documents too, each of which has an equality of its
own. It is an equivalence as long as what is embedded is well formed.

- `HostValue.Inhabits`: the values of a type, open ones included. What containers keep true of their
  members is not asked.
- `Schema.Typed`: fields start with values of their types.
- `HostValue.atom?`, `HostValue.sequence_same_iff` and its like: sameness as a relation on the
  parts of values.
- `HostValue.Inhabits.equivAt`, `HostValue.equivOn`: among the values of a type, sameness is an
  equivalence.
-/

namespace ScriptBridge

/-- The values of a type. -/
inductive HostValue.Inhabits (schema : Schema) : HostValue → HostType → Prop
  | bool (b : Bool) : Inhabits schema (.bool b) .bool
  | int (t : IntType) (n : Fixed t) : Inhabits schema (.int t n) (.int t)
  | wrapping (t : IntType) (n : Fixed t) : Inhabits schema (.wrapping t n) (.wrapping t)
  | bigInt (n : Int) : Inhabits schema (.bigInt n) .bigInt
  | single (x : Binary32) : Inhabits schema (.single x) .single
  | double (x : Binary64) : Inhabits schema (.double x) .double
  | string (s : String) : Inhabits schema (.string s) .string
  | char (c : Char) : Inhabits schema (.char c) .char
  | bytes (bs : List UInt8) : Inhabits schema (.bytes bs) .bytes
  | callable (c : Callable) : Inhabits schema (.callable c) .callable
  | script {v : Value} (h : v.WellFormed) : Inhabits schema (.script v) .script
  | dynamic {d : Dynamic} (h : d.WellFormed) : Inhabits schema (.dynamic d) .dynamic
  | json {j : Json} (h : j.NamesDiffer) : Inhabits schema (.json j) .json
  | none (t : HostType) : Inhabits schema .none (.option t)
  | some {x : HostValue} {t : HostType} (h : Inhabits schema x t) :
      Inhabits schema (.some x) (.option t)
  | pointer {x : HostValue} {t : HostType} (h : Inhabits schema x t) :
      Inhabits schema x (.pointer t)
  | sequence {kind : SequenceKind} {items : List HostValue} {item : HostType}
      (h : ∀ x ∈ items, Inhabits schema x item) :
      Inhabits schema (.sequence kind items) (.sequence kind item)
  | mapping {kind : MappingKind} {entries : List (HostValue × HostValue)} {key value : HostType}
      (hkeys : ∀ e ∈ entries, Inhabits schema e.1 key)
      (hvalues : ∀ e ∈ entries, Inhabits schema e.2 value) :
      Inhabits schema (.mapping kind entries) (.mapping kind key value)
  | struct {name : String} {decl : StructDecl} {stored hidden : List HostValue}
      (hdecl : decl = (schema.lookup name).decl)
      (hstored : stored.length = (schema.lookup name).slots.length)
      (hhidden : hidden.length = (schema.lookup name).hidden.length)
      (h : ∀ (i : Nat) (x : HostValue) (slot : Slot), stored[i]? = .some x →
        (schema.lookup name).slots[i]? = .some slot → Inhabits schema x slot.type)
      (h' : ∀ (i : Nat) (x : HostValue) (slot : Slot), hidden[i]? = .some x →
        (schema.lookup name).hidden[i]? = .some slot → Inhabits schema x slot.type) :
      Inhabits schema (.struct decl stored hidden) (.struct name)

/-- Every field of a struct starts with a value of its type. -/
def Schema.Typed (schema : Schema) : Prop :=
  ∀ name, ∀ slot ∈ (schema.lookup name).slots ++ (schema.lookup name).hidden,
    slot.initial.Inhabits schema slot.type

namespace HostValue

variable {schema : Schema} {x y s : HostValue} {t : HostType}

/-! ## Sameness as a relation -/

/-- Sameness as a relation. -/
def Same (x y : HostValue) : Prop := same x y = true

/-- What a value without members is compared by. -/
def atom? : HostValue → Option HostValue
  | bool b => .some (bool b)
  | int t n => .some (int t n)
  | wrapping t n => .some (wrapping t n)
  | bigInt n => .some (bigInt n)
  | single x => .some (single x.canonical)
  | double x => .some (double x.canonical)
  | string s => .some (string s)
  | char c => .some (char c)
  | bytes bs => .some (bytes bs)
  | callable c => .some (callable c)
  | none => .some none
  | _ => .none

/-- Numbers of fixed-width types are told by the type and the size. -/
theorem fixed_same_iff {t u : IntType} {m : Fixed t} {n : Fixed u} :
    (t = u ∧ m.val = n.val) ↔ t = u ∧ HEq m n :=
  and_congr_right fun h => by
    subst h
    rw [Fixed.val_inj, heq_eq_eq]

theorem same_iff_of_atom (hx : x.atom? = .some s) :
    same x y = true ↔ y.atom? = .some s := by
  cases x <;> cases hx <;> cases y <;> simp [same, atom?, Binary.same, fixed_same_iff]
  all_goals grind

theorem same_iff_of_atom_right (hy : y.atom? = .some s) :
    same x y = true ↔ x.atom? = .some s := by
  cases y <;> cases hy <;> cases x <;> simp [same, atom?, Binary.same, fixed_same_iff]

theorem equivAt_of_atom {good : HostValue → Prop} (hx : x.atom? = .some s) :
    EquivAt Same good x :=
  .of_key hx same_iff_of_atom same_iff_of_atom_right

theorem script_same_iff {v w : Value} : Same (script v) (script w) ↔ v.Same w := by
  rw [Same, same, Value.Same]

theorem dynamic_same_iff {d e : Dynamic} : Same (dynamic d) (dynamic e) ↔ d.Same e := by
  rw [Same, same, Dynamic.Same]

theorem json_same_iff {j k : Json} : Same (json j) (json k) ↔ j.Same k := by
  rw [Same, same, Json.Same]

theorem some_same_iff : Same (some x) (some y) ↔ Same x y := by
  rw [Same, same, Same]

theorem sequence_same_iff {kind kind' : SequenceKind} {as bs : List HostValue} :
    Same (sequence kind as) (sequence kind' bs) ↔ kind = kind' ∧ List.Forall₂ Same as bs := by
  rw [Same, same, Bool.and_eq_true, beq_iff_eq, eachSame_iff]
  rfl

theorem mapping_same_iff {kind kind' : MappingKind} {as bs : List (HostValue × HostValue)} :
    Same (mapping kind as) (mapping kind' bs) ↔
      kind = kind' ∧ List.Forall₂ (SameEntry same Same) as bs := by
  rw [Same, same, Bool.and_eq_true, beq_iff_eq, entriesSame_iff]
  rfl

theorem struct_same_iff {decl decl' : StructDecl} {as bs hs hs' : List HostValue} :
    Same (struct decl as hs) (struct decl' bs hs') ↔
      decl = decl' ∧ List.Forall₂ Same as bs ∧ List.Forall₂ Same hs hs' := by
  rw [Same, same, Bool.and_eq_true, Bool.and_eq_true, beq_iff_eq, eachSame_iff, eachSame_iff]
  rfl

/-! ## The values of one type -/

/-- A value that has the type of the slot at an index. -/
def AtSlot (schema : Schema) (slots : List Slot) (i : Nat) (x : HostValue) : Prop :=
  ∀ slot, slots[i]? = .some slot → x.Inhabits schema slot.type

/-- Fields that have the types of their slots. -/
def AtSlots (schema : Schema) (slots : List Slot) (fields : List HostValue) : Prop :=
  ∀ (i : Nat) (x : HostValue), fields[i]? = .some x → AtSlot schema slots i x

/-- Where there are as many fields as slots, each field has its slot. -/
theorem exists_slot {fields : List HostValue} {slots : List Slot}
    (hlength : fields.length = slots.length) {i : Nat} (hi : fields[i]? = .some x) :
    ∃ slot, slots[i]? = .some slot := by
  have hbound : i < slots.length := hlength ▸ (List.getElem?_eq_some_iff.mp hi).1
  exact ⟨slots[i], List.getElem?_eq_getElem hbound⟩

namespace Inhabits

theorem pointer_iff : x.Inhabits schema (.pointer t) ↔ x.Inhabits schema t :=
  ⟨fun h => by cases h; assumption, .pointer⟩

theorem sequence_iff {kind : SequenceKind} {items : List HostValue} {item : HostType} :
    (HostValue.sequence kind items).Inhabits schema (.sequence kind item) ↔
      ∀ x ∈ items, x.Inhabits schema item :=
  ⟨fun h => by cases h; assumption, .sequence⟩

theorem mapping_iff {kind : MappingKind} {entries : List (HostValue × HostValue)}
    {key value : HostType} :
    (HostValue.mapping kind entries).Inhabits schema (.mapping kind key value) ↔
      ∀ e ∈ entries, e.1.Inhabits schema key ∧ e.2.Inhabits schema value := by
  constructor
  · intro h e he
    cases h with
    | mapping hkeys hvalues => exact ⟨hkeys e he, hvalues e he⟩
  · intro h
    exact .mapping (fun e he => (h e he).1) fun e he => (h e he).2

/-- The fields of a struct have the types of their slots. -/
theorem fields {name : String} {decl : StructDecl} {stored hidden : List HostValue}
    (h : (HostValue.struct decl stored hidden).Inhabits schema (.struct name)) :
    AtSlots schema (schema.lookup name).slots stored ∧
      AtSlots schema (schema.lookup name).hidden hidden := by
  cases h with
  | struct _ _ _ h h' => exact ⟨fun i x hx slot => h i x slot hx, fun i x hx slot => h' i x slot hx⟩

/-- A value is the same as itself. -/
theorem same_self (h : x.Inhabits schema t) : same x x = true := by
  -- each field of a struct stands at the index of a slot
  have hfields {fields : List HostValue} {slots : List Slot}
      (hlength : fields.length = slots.length)
      (ih : ∀ (i : Nat) (x : HostValue) (slot : Slot), fields[i]? = .some x →
        slots[i]? = .some slot → same x x = true) : List.Forall₂ Same fields fields := by
    refine List.forall₂_same.mpr fun x hx => ?_
    obtain ⟨i, hi⟩ := List.mem_iff_getElem?.mp hx
    obtain ⟨slot, hslot⟩ := exists_slot hlength hi
    exact ih i x slot hi hslot
  induction h with
  | script h => exact h.same_self
  | dynamic h => exact h.same_self
  | json h => exact h.same_self
  | some _ ih => exact ih
  | pointer _ ih => exact ih
  | sequence _ ih => exact sequence_same_iff.mpr ⟨rfl, List.forall₂_same.mpr ih⟩
  | mapping _ _ ihkeys ihvalues =>
    exact mapping_same_iff.mpr
      ⟨rfl, List.forall₂_same.mpr fun e he => ⟨ihkeys e he, ihvalues e he⟩⟩
  | struct _ hstored hhidden _ _ ih ih' =>
    exact struct_same_iff.mpr ⟨rfl, hfields hstored ih, hfields hhidden ih'⟩
  | _ => exact (same_iff_of_atom rfl).mpr rfl

/-- Sameness of sequences, of maps and of structs is an equivalence where sameness of their members
is. -/
theorem equivAt_sequence {kind : SequenceKind} {items : List HostValue} {item : HostType}
    (h : ∀ x ∈ items, x.Inhabits schema item)
    (ih : ∀ x ∈ items, EquivAt Same (·.Inhabits schema item) x) :
    EquivAt Same (·.Inhabits schema (.sequence kind item)) (HostValue.sequence kind items) := by
  refine .of_iff (HostValue.sequence kind) (.forall₂ ih) (.sequence h) sequence_iff.mp
    (fun {y b} hb => ?_) (sequence_same_iff.trans (and_iff_right rfl))
  cases b with
  | sequence kind' bs =>
    rw [sequence_same_iff, sequence_same_iff] at hb
    exact ⟨bs, by rcases hb with hb | hb <;> rw [hb.1]⟩
  | _ => simp [Same, same] at hb

theorem equivAt_mapping {kind : MappingKind} {entries : List (HostValue × HostValue)}
    {key value : HostType} (hkeys : ∀ e ∈ entries, e.1.Inhabits schema key)
    (hvalues : ∀ e ∈ entries, e.2.Inhabits schema value)
    (ihkeys : ∀ e ∈ entries, EquivAt Same (·.Inhabits schema key) e.1)
    (ihvalues : ∀ e ∈ entries, EquivAt Same (·.Inhabits schema value) e.2) :
    EquivAt Same (·.Inhabits schema (.mapping kind key value))
      (HostValue.mapping kind entries) := by
  refine .of_iff (HostValue.mapping kind)
    (.forall₂ fun e he => .entry (ihkeys e he) (ihvalues e he)) (.mapping hkeys hvalues)
    mapping_iff.mp (fun {y b} hb => ?_) (mapping_same_iff.trans (and_iff_right rfl))
  cases b with
  | mapping kind' bs =>
    rw [mapping_same_iff, mapping_same_iff] at hb
    exact ⟨bs, by rcases hb with hb | hb <;> rw [hb.1]⟩
  | _ => simp [Same, same] at hb

/-- The fields of a struct have types of their own, so it depends on the index which of them are
compared. -/
theorem equivAt_fields {fields : List HostValue} {slots : List Slot}
    (hlength : fields.length = slots.length)
    (ih : ∀ (i : Nat) (x : HostValue) (slot : Slot), fields[i]? = .some x →
      slots[i]? = .some slot → EquivAt Same (·.Inhabits schema slot.type) x) :
    EquivAt (List.Forall₂ Same) (AtSlots schema slots) fields := by
  refine .forall₂_indexed fun i x hi => ?_
  obtain ⟨slot, hslot⟩ := exists_slot hlength hi
  exact (ih i x slot hi hslot).mono fun y hy => hy slot hslot

theorem equivAt_struct {name : String} {decl : StructDecl} {stored hidden : List HostValue}
    (h : (HostValue.struct decl stored hidden).Inhabits schema (.struct name))
    (ih : EquivAt (List.Forall₂ Same) (AtSlots schema (schema.lookup name).slots) stored)
    (ih' : EquivAt (List.Forall₂ Same) (AtSlots schema (schema.lookup name).hidden) hidden) :
    EquivAt Same (·.Inhabits schema (.struct name)) (HostValue.struct decl stored hidden) := by
  refine .of_iff (fun p : List HostValue × List HostValue => HostValue.struct decl p.1 p.2)
    (ih.prod (p := (stored, hidden)) ih') h fields (fun {y b} hb => ?_)
    (struct_same_iff.trans (and_iff_right rfl))
  cases b with
  | struct decl' bs hs =>
    rw [struct_same_iff, struct_same_iff] at hb
    exact ⟨(bs, hs), by rcases hb with hb | hb <;> rw [hb.1]⟩
  | _ => simp [Same, same] at hb

/-- Sameness is an equivalence at every value of a type, among the values of that type. -/
theorem equivAt (h : x.Inhabits schema t) : EquivAt Same (·.Inhabits schema t) x := by
  induction h with
  | script h =>
    exact .of_iff HostValue.script h.equivAt (.script h) (fun h => by cases h; assumption)
      (fun {y b} hb => by cases b <;> simp [Same, same] at hb ⊢) script_same_iff
  | dynamic h =>
    exact .of_iff HostValue.dynamic h.equivAt (.dynamic h) (fun h => by cases h; assumption)
      (fun {y b} hb => by cases b <;> simp [Same, same] at hb ⊢) dynamic_same_iff
  | json h =>
    exact .of_iff HostValue.json h.equivAt (.json h) (fun h => by cases h; assumption)
      (fun {y b} hb => by cases b <;> simp [Same, same] at hb ⊢) json_same_iff
  | some h ih =>
    exact .of_iff HostValue.some ih (.some h) (fun h => by cases h; assumption)
      (fun {y b} hb => by cases b <;> simp [Same, same] at hb ⊢) some_same_iff
  | pointer _ ih => exact ih.mono fun _ => pointer_iff.mp
  | sequence h ih => exact equivAt_sequence h ih
  | mapping hkeys hvalues ihkeys ihvalues => exact equivAt_mapping hkeys hvalues ihkeys ihvalues
  | struct hdecl hstored hhidden h h' ih ih' =>
    exact equivAt_struct (.struct hdecl hstored hhidden h h') (equivAt_fields hstored ih)
      (equivAt_fields hhidden ih')
  | _ => exact equivAt_of_atom rfl

end Inhabits

/-- Among the values of a type sameness is an equivalence. -/
theorem equivOn (schema : Schema) (t : HostType) : EquivOn same (·.Inhabits schema t) :=
  .of_equivAt Inhabits.same_self Inhabits.equivAt

end HostValue

end ScriptBridge
