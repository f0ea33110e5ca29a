import ScriptBridge.Decoding.Typed
import ScriptBridge.Proofs.Host.Typing
import ScriptBridge.Proofs.Traversal

/-!
# What the typed decoder makes of containers

The counterpart of the lemmas on the strict encoder: a list of members is decoded when each member
is, and a container takes the decoded members as a whole.

- `decode_pointer`, `decode_option_null`, `decode_option`: types that stand for the type inside
  them.
- `decodeItems_eq_ok`, `decodeEntries_eq_ok`: lists of members.
- `decode_list_of_items`, `decode_dict_of_entries`: lists and dicts as containers that hold them.
- `StructDef.Regular.attrSlot?`, `decodeAttrs_in_order`, `decode_record_of_attrs`: records whose
  attributes are those of a struct, in the order of its table.
-/

namespace ScriptBridge

variable {schema : Schema}

/-! ## Options and pointers -/

/-- A pointer is what it points to. -/
theorem decode_pointer (v : Value) (t : HostType) :
    decode schema v (.pointer t) = decode schema v t := by
  cases v <;> rfl

/-- Null is absence. -/
theorem decode_option_null (t : HostType) : decode schema .null (.option t) = .ok .none := rfl

/-- What is not null is what the type inside makes of it. -/
theorem decode_option {v : Value} {t : HostType} (hv : v ≠ .null) :
    decode schema v (.option t) = HostValue.some <$> decode schema v t := by
  cases v with
  | null => exact absurd rfl hv
  | _ => rfl

/-- What is not null is present. -/
theorem decode_option_of_ne_null {v : Value} {t : HostType} {x : HostValue} (hv : v ≠ .null)
    (h : decode schema v t = .ok x) : decode schema v (.option t) = .ok (.some x) := by
  rw [decode_option hv, h]
  rfl

/-! ## Lists and dicts -/

/-- A list of items is decoded when each item is. -/
theorem decodeItems_eq_ok {container : Kind} {item : HostType} {vs : List Value} {index : Nat}
    {xs : List HostValue} :
    decodeItems schema container item vs index = .ok xs ↔
      List.Forall₂ (fun v x => decode schema v item = .ok x) vs xs :=
  items_eq_ok (decodeItems schema container item) (fun _ => rfl) fun _ _ _ => rfl

/-- A pair of script values stands for an entry. -/
def DecodesEntry (schema : Schema) (key value : HostType) (p : Value × Value)
    (e : HostValue × HostValue) : Prop :=
  decode schema p.1 key = .ok e.1 ∧ decode schema p.2 value = .ok e.2

/-- Entries are decoded when each key and each value is. -/
theorem decodeEntries_eq_ok {key value : HostType} {pairs : List (Value × Value)}
    {entries : List (HostValue × HostValue)} :
    decodeEntries schema key value pairs = .ok entries ↔
      List.Forall₂ (DecodesEntry schema key value) pairs entries :=
  entries_eq_ok (decodeEntries schema key value) rfl (fun _ _ _ => rfl) fun _ _ _ _ => by
    simp only [DecodesEntry, ConvertError.locate_eq_ok]

/-- A list is a sequence of its decoded items, if the sequence can hold them as they are. -/
theorem decode_list_of_items {vs : List Value} {xs : List HostValue} {kind : SequenceKind}
    {item : HostType} (hitems : List.Forall₂ (fun v x => decode schema v item = .ok x) vs xs)
    (hkind : kind.Holds xs) :
    decode schema (.list vs) (.sequence kind item) = .ok (.sequence kind xs) := by
  have hcollect := SequenceKind.collect_of_holds hkind
  show (do finishSequence (.list vs) kind item (← decodeItems schema .list item vs 0)) = _
  rw [bind_eq_ok]
  refine ⟨xs, decodeItems_eq_ok.mpr hitems, ?_⟩
  cases kind with
  | array length => exact if_pos hkind
  | _ => exact congrArg (fun items => Except.ok (HostValue.sequence _ items)) hcollect

/-- A dict is a map of its decoded entries, if the map can hold them as they are. -/
theorem decode_dict_of_entries {pairs : List (Value × Value)}
    {entries : List (HostValue × HostValue)} {kind : MappingKind} {key value : HostType}
    (hentries : List.Forall₂ (DecodesEntry schema key value) pairs entries)
    (hkind : kind.Holds entries) :
    decode schema (.dict pairs) (.mapping kind key value) = .ok (.mapping kind entries) := by
  have hcollect := MappingKind.collect_of_holds hkind
  show (do
    return HostValue.mapping kind (kind.collect (← decodeEntries schema key value pairs))) = _
  rw [bind_eq_ok]
  refine ⟨entries, decodeEntries_eq_ok.mpr hentries, ?_⟩
  rw [hcollect]
  rfl

/-! ## Records -/

/-- In a regular struct an attribute goes to the storage of the entry that it is named after. -/
theorem StructDef.Regular.attrSlot? {d : StructDef} (h : d.Regular) {i : Nat} {spec : FieldSpec}
    {slot : Slot} (hspec : d.table[i]? = some spec) (hslot : d.slots[i]? = some slot) :
    d.attrSlot? spec.attrName = some (i, slot.type) := by
  rw [StructDef.attrSlot?, h.resolves i spec hspec]
  show (d.slots[i]?).bind _ = _
  rw [hslot]
  rfl

/-- An attribute goes to a field of a struct and is decoded to its type. -/
def StructDef.TakesAttr (schema : Schema) (d : StructDef) (index : Nat) (attr : String × Value)
    (x : HostValue) : Prop :=
  ∃ t, d.attrSlot? attr.1 = some (index, t) ∧ decode schema attr.2 t = .ok x

/-- Attributes that go to successive fields fill these fields. -/
theorem decodeAttrs_in_order {d : StructDef} {attrs : List (String × Value)}
    (done old xs : List HostValue) (hlength : attrs.length = xs.length)
    (hold : old.length = xs.length)
    (h : ∀ (i : Nat) (attr : String × Value) (x : HostValue), attrs[i]? = some attr →
      xs[i]? = some x → d.TakesAttr schema (done.length + i) attr x) :
    decodeAttrs schema d attrs (done ++ old) = .ok (done ++ xs) := by
  induction attrs generalizing done old xs with
  | nil =>
    obtain rfl := List.length_eq_zero_iff.mp hlength.symm
    obtain rfl := List.length_eq_zero_iff.mp hold
    rfl
  | cons attr rest ih =>
    obtain ⟨name, v⟩ := attr
    cases xs with
    | nil => cases hlength
    | cons x xs =>
      cases old with
      | nil => cases hold
      | cons y old =>
        obtain ⟨t, hslot, hx⟩ := h 0 (name, v) x rfl rfl
        -- the field at hand moves from what is old to what is done
        have hset : (done ++ y :: old).set done.length x = (done ++ [x]) ++ old := by simp
        have hlater : ∀ (i : Nat) (attr : String × Value) (x' : HostValue),
            rest[i]? = some attr → xs[i]? = some x' →
              d.TakesAttr schema ((done ++ [x]).length + i) attr x' := by
          intro i attr x' hattr hx'
          have hnext := h (i + 1) attr x' hattr hx'
          rwa [List.length_append, List.length_singleton, Nat.add_assoc, Nat.add_comm 1]
        have hrest := ih (done ++ [x]) old xs (Nat.succ.inj hlength) (Nat.succ.inj hold) hlater
        rw [decodeAttrs, hslot]
        show (do
          let x ← ConvertError.locate _ (decode schema v t)
          decodeAttrs schema d rest ((done ++ y :: old).set done.length x)) = _
        rw [bind_eq_ok]
        refine ⟨x, ConvertError.locate_eq_ok.mpr hx, ?_⟩
        rw [hset, hrest, List.append_assoc]
        rfl

/-- A record is a struct whose fields its attributes fill. -/
theorem decode_record_of_attrs {typeName name : String} {attrs : List (String × Value)}
    {xs : List HostValue} (hattrs : attrs.length = xs.length)
    (hslots : (schema.lookup name).slots.length = xs.length)
    (h : ∀ (i : Nat) (attr : String × Value) (x : HostValue), attrs[i]? = some attr →
      xs[i]? = some x → (schema.lookup name).TakesAttr schema i attr x) :
    decode schema (.record typeName attrs) (.struct name) =
      .ok (.struct (schema.lookup name).decl xs (schema.lookup name).initialHidden) := by
  have hstored : decodeAttrs schema (schema.lookup name) attrs
      ([] ++ (schema.lookup name).initialStored) = .ok ([] ++ xs) := by
    refine decodeAttrs_in_order [] _ xs hattrs ((List.length_map _).trans hslots)
      fun i attr x ha hx => ?_
    rw [List.length_nil, Nat.zero_add]
    exact h i attr x ha hx
  show (do
    return HostValue.struct (schema.lookup name).decl
      (← decodeAttrs schema (schema.lookup name) attrs (schema.lookup name).initialStored)
      (schema.lookup name).initialHidden) = _
  rw [bind_eq_ok]
  exact ⟨xs, hstored, rfl⟩

end ScriptBridge
