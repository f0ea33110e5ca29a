import ScriptBridge.Proofs.Ascending
import ScriptBridge.Proofs.Decoding.Attributes
import ScriptBridge.Proofs.Decoding.Faithful
import ScriptBridge.Proofs.Decoding.Open
import ScriptBridge.Proofs.Host.Inhabitants

/-!
# What is decoded has the type asked for

Every type is covered, those included whose values cannot be read back. The values that are embedded
in host values come from the script value, so they are well formed only as far as that is; a field
that no attribute belongs to keeps what it started with.

- `SequenceKind.mem_of_mem_collect`, `MappingKind.forall_collect`: containers keep what they are
  given.
- `decodeLeaf_inhabits`, `decodeAttrs_inhabits`: types that take a value as a whole, and structs.
- `Value.WellFormed.decode_inhabits`: what a well-formed value is decoded to has the type.
-/

namespace ScriptBridge

/-! ## What containers keep -/

theorem SequenceKind.mem_of_mem_collect {kind : SequenceKind} {items : List HostValue}
    {x : HostValue} (h : x ∈ kind.collect items) : x ∈ items := by
  cases kind with
  | vector => exact h
  | array length => exact h
  | hashSet => exact (Distinct.insertAll_sublist HostValue.same [] items).subset h
  | sortedSet =>
    obtain ⟨e, he, rfl⟩ := List.mem_map.mp h
    obtain ⟨y, hy, rfl⟩ := List.mem_map.mp (Sorted.mem_putAll he)
    exact hy

/-- Which key is kept and which value depends on the kind of the map, but both were given. -/
theorem MappingKind.forall_collect {kind : MappingKind} {entries : List (HostValue × HostValue)}
    {p q : HostValue → Prop} (h : ∀ e ∈ entries, p e.1 ∧ q e.2) :
    ∀ e ∈ kind.collect entries, p e.1 ∧ q e.2 := by
  cases kind with
  | hashMap => exact Assoc.forall_putAll HostValue.same (List.forall_mem_nil _) h
  | sortedMap => exact fun e he => h e (Sorted.mem_putAll he)
  | orderedMap => exact Assoc.forall_putAll HostValue.same (List.forall_mem_nil _) h

variable {schema : Schema} {v : Value} {t : HostType} {x : HostValue}

theorem finishSequence_inhabits {kind : SequenceKind} {item : HostType} {items : List HostValue}
    (hitems : ∀ y ∈ items, y.Inhabits schema item)
    (h : finishSequence v kind item items = .ok x) : x.Inhabits schema (.sequence kind item) := by
  cases kind with
  | array length =>
    rw [finishSequence_of_keepsAll rfl h]
    exact .sequence hitems
  | _ =>
    obtain rfl := Except.ok.inj h
    exact .sequence fun y hy => hitems y (SequenceKind.mem_of_mem_collect hy)

/-! ## Types that take a value as a whole -/

theorem decodeLeaf_inhabits (hv : v.WellFormed) (ht : t.isWhole = true)
    (h : decodeLeaf v t = .ok x) : x.Inhabits schema t := by
  cases t with
  | option | pointer | sequence | mapping | struct => cases ht
  | script =>
    obtain rfl := Except.ok.inj h
    exact .script hv
  | dynamic =>
    obtain ⟨d, hd, hx⟩ := bind_eq_ok.mp h
    obtain rfl := pure_eq_ok.mp hx
    exact .dynamic (Value.dynamic_wellFormed hd)
  | json =>
    obtain ⟨j, hj, hx⟩ := bind_eq_ok.mp h
    obtain rfl := pure_eq_ok.mp hx
    exact .json (hv.namesDiffer hj)
  | int type =>
    obtain ⟨n, -, hx⟩ := bind_eq_ok.mp h
    rw [decodeFixed] at hx
    split at hx <;> cases hx
    exact .int type _
  | char =>
    obtain ⟨s, -, hx⟩ := bind_eq_ok.mp h
    rw [decodeChar] at hx
    split at hx <;> cases hx
    exact .char _
  | _ =>
    -- the other types wrap the part of the value that they ask for
    obtain ⟨part, -, hx⟩ := bind_eq_ok.mp h
    obtain rfl := pure_eq_ok.mp hx
    constructor

/-! ## Structs -/

/-- The attribute that counts for an entry is an attribute of the record. -/
theorem StructDef.mem_of_attribute? {d : StructDef} {attrs : List (String × Value)} {i : Nat}
    (h : d.attribute? attrs i = some v) : v ∈ attrs.map (·.2) := by
  obtain ⟨attr, hattr, rfl⟩ := Option.map_eq_some_iff.mp h
  exact List.mem_map_of_mem (List.mem_reverse.mp (List.mem_of_find?_eq_some hattr))

theorem decode_struct_inhabits (hschema : schema.Typed) {typeName name : String}
    {attrs : List (String × Value)}
    (ih : ∀ u ∈ attrs.map (·.2), ∀ {t x}, decode schema u t = .ok x → x.Inhabits schema t)
    (h : decode schema (.record typeName attrs) (.struct name) = .ok x) :
    x.Inhabits schema (.struct name) := by
  obtain ⟨stored, hstored, hx⟩ := bind_eq_ok.mp h
  obtain rfl := pure_eq_ok.mp hx
  have hfilled := attrsFilled_of_decodeAttrs (by simp [StructDef.initialStored]) hstored
  refine .struct rfl hfilled.length (by simp [StructDef.initialHidden])
    (fun i x slot hx hslot => ?_) fun i x slot hx hslot => ?_
  · cases hattr : (schema.lookup name).attribute? attrs i with
    | some u =>
      obtain ⟨y, hy, hi⟩ := hfilled.given i slot u hslot hattr
      obtain rfl := Option.some.inj (hx.symm.trans hi)
      exact ih u (StructDef.mem_of_attribute? hattr) hy
    | none =>
      rw [hfilled.kept i hattr, StructDef.initialStored, List.getElem?_map, hslot] at hx
      obtain rfl := Option.some.inj hx
      exact hschema name slot (List.mem_append_left _ (List.mem_of_getElem? hslot))
  · rw [StructDef.initialHidden, List.getElem?_map, hslot] at hx
    obtain rfl := Option.some.inj hx
    exact hschema name slot (List.mem_append_right _ (List.mem_of_getElem? hslot))

/-! ## All types -/

/-- Only bytes are taken in place of items. -/
theorem SequenceKind.item_of_takesBytes {kind : SequenceKind} {item : HostType}
    (h : kind.takesBytes item = true) : item = .int .byte := by
  cases kind with
  | vector | array length => exact eq_of_beq h
  | hashSet | sortedSet => cases h

namespace Value

theorem mem_members_of_members? {vs : List Value} {u : Value} (hvs : v.members? = some vs)
    (hu : u ∈ vs) : u ∈ v.members := by
  cases v <;> cases hvs <;> exact hu

/-- If it is so for the members of a value it is so for the value. -/
theorem WellFormed.decode_inhabits_of_members (hschema : schema.Typed) (hv : v.WellFormed)
    (ih : ∀ m ∈ v.members, ∀ {t x}, decode schema m t = .ok x → x.Inhabits schema t)
    (h : decode schema v t = .ok x) : x.Inhabits schema t := by
  induction t generalizing x with
  | option t iht =>
    rcases decode_option_eq_ok.mp h with ⟨-, rfl⟩ | ⟨-, y, hy, rfl⟩
    · exact .none t
    · exact .some (iht hy)
  | pointer t iht => exact .pointer (iht (decode_pointer v t ▸ h))
  | sequence kind item =>
    obtain ⟨xs, hxs, hfinish⟩ := decode_sequence_eq_ok h
    refine finishSequence_inhabits (fun y hy => ?_) hfinish
    rcases hxs with ⟨vs, hvs, hxs⟩ | ⟨htakes, bs, -, rfl⟩
    · obtain ⟨u, hu, hy⟩ := forall₂_exists_left hxs y hy
      exact ih u (mem_members_of_members? hvs hu) hy
    · obtain ⟨b, -, rfl⟩ := List.mem_map.mp hy
      rw [SequenceKind.item_of_takesBytes htakes]
      exact .int .byte _
  | mapping kind key value =>
    cases decodes_mapping h with
    | entries hentries =>
      refine HostValue.Inhabits.mapping_iff.mpr
        (MappingKind.forall_collect (p := (·.Inhabits schema key)) (q := (·.Inhabits schema value))
          fun e he => ?_)
      obtain ⟨p, hp, hkey, hvalue⟩ := forall₂_exists_left hentries e he
      exact ⟨ih p.1 (key_mem_keysAndValues hp) hkey, ih p.2 (value_mem_keysAndValues hp) hvalue⟩
  | struct name =>
    cases v with
    | record typeName attrs => exact decode_struct_inhabits hschema ih h
    | _ => cases h
  | _ =>
    rw [decode_of_isWhole rfl] at h
    exact decodeLeaf_inhabits hv rfl h

/-- What a well-formed value is decoded to has the type asked for. -/
theorem WellFormed.decode_inhabits (hschema : schema.Typed) (hv : v.WellFormed)
    (h : decode schema v t = .ok x) : x.Inhabits schema t := by
  induction hv generalizing t x with
  | list hitems ih => exact decode_inhabits_of_members hschema (.list hitems) ih h
  | tuple hitems ih => exact decode_inhabits_of_members hschema (.tuple hitems) ih h
  | set hitems hhash hdiffer ih =>
    exact decode_inhabits_of_members hschema (.set hitems hhash hdiffer) ih h
  | dict hkeys hvalues hhash hdiffer ihkeys ihvalues =>
    refine decode_inhabits_of_members hschema (.dict hkeys hvalues hhash hdiffer) (fun m hm => ?_) h
    obtain ⟨e, he, rfl | rfl⟩ := mem_keysAndValues.mp hm
    · exact ihkeys e he
    · exact ihvalues e he
  | record hattrs hnames hdiffer ih =>
    exact decode_inhabits_of_members hschema (.record hattrs hnames hdiffer)
      (List.forall_mem_map.mpr ih) h
  | _ => exact decode_inhabits_of_members hschema (by constructor) (by simp [members]) h

end Value

end ScriptBridge
