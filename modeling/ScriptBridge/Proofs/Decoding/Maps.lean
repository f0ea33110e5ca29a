import ScriptBridge.Proofs.Decoding.Inhabitants
import ScriptBridge.Proofs.Host.Defaults
import ScriptBridge.Proofs.Host.Sortable

/-!
# A dict as a map of every kind

Keys that differ as script values may be decoded to the same key, as integers are that are reduced.
Then entries are lost, and each kind of map loses them in its own way: hash maps and ordered maps
overwrite the value of the key that is there, sorted maps replace the entry. The outcome is one
association all the same, so that only the order of the entries depends on the kind.

- `FirstEntryFails`, `decodeEntries_eq_error`: entries fail as the first of them that fails, a key
  before its value.
- `MappingKind.Collects`: what a map keeps of the entries it is given.
- `MappingKind.collects_collect`: each kind of map keeps that, and so all keep the same entries
  (`MappingKind.Collects.perm`).
- `decode_dict_every_kind`: a dict decoded to maps of every kind.
-/

namespace ScriptBridge

variable {schema : Schema} {key value : HostType} {p : Value × Value} {pairs : List (Value × Value)}
  {e : ConvertError}

/-! ## The first entry that fails -/

/-- An entry fails as its key does, or as its value if the key is decoded. -/
inductive EntryFails (schema : Schema) (key value : HostType) (p : Value × Value) :
    ConvertError → Prop
  | key {cause : ConvertError} (h : decode schema p.1 key = .error cause) :
      EntryFails schema key value p (.within (.key p.1) cause)
  | value {k : HostValue} {cause : ConvertError} (hkey : decode schema p.1 key = .ok k)
      (h : decode schema p.2 value = .error cause) :
      EntryFails schema key value p (.within (.entry p.1) cause)

/-- Of the entries of a dict, in order, one fails and all before it are decoded. -/
def FirstEntryFails (schema : Schema) (key value : HostType) (pairs : List (Value × Value))
    (e : ConvertError) : Prop :=
  ∃ before p after, pairs = before ++ p :: after ∧
    (∀ b ∈ before, ∃ entry, DecodesEntry schema key value b entry) ∧
    EntryFails schema key value p e

theorem firstEntryFails_cons :
    FirstEntryFails schema key value (p :: pairs) e ↔ EntryFails schema key value p e ∨
      (∃ entry, DecodesEntry schema key value p entry) ∧
        FirstEntryFails schema key value pairs e := by
  rw [FirstEntryFails, exists_split_cons]
  refine or_congr ⟨fun h => h.2, fun h => ⟨List.forall_mem_nil _, h⟩⟩ ?_
  simp only [FirstEntryFails, List.forall_mem_cons, and_assoc, ← exists_and_left, and_left_comm]

/-- Entries fail as the first of them that fails. -/
theorem decodeEntries_eq_error :
    decodeEntries schema key value pairs = .error e ↔
      FirstEntryFails schema key value pairs e := by
  induction pairs with
  | nil => simp [decodeEntries, FirstEntryFails]
  | cons p rest ih =>
    obtain ⟨k, v⟩ := p
    rw [decodeEntries, firstEntryFails_cons, ← ih]
    simp only [↓bind_pure_eq_error, bind_eq_error, ConvertError.locate_eq_error,
      ConvertError.locate_eq_ok]
    constructor
    · rintro (⟨cause, hkey, rfl⟩ | ⟨x, hx, ⟨cause, hvalue, rfl⟩ | ⟨y, hy, hrest⟩⟩)
      · exact .inl (.key hkey)
      · exact .inl (.value hx hvalue)
      · exact .inr ⟨⟨(x, y), hx, hy⟩, hrest⟩
    · rintro (hfails | ⟨⟨⟨x, y⟩, hx, hy⟩, hrest⟩)
      · cases hfails with
        | key h => exact .inl ⟨_, h, rfl⟩
        | value hkey h => exact .inr ⟨_, hkey, .inl ⟨_, h, rfl⟩⟩
      · exact .inr ⟨x, hx, .inr ⟨y, hy, hrest⟩⟩

/-! ## What maps keep -/

/-- How a map lists its keys. -/
def MappingKind.Arranges (kind : MappingKind) (given kept : List (HostValue × HostValue)) : Prop :=
  match kind with
  | hashMap => True
  | sortedMap => Sorted.Ascending HostValue.compare kept
  | orderedMap => kept.map (·.1) = firstOccurrences HostValue.same (given.map (·.1))

/-- What a map keeps of the entries it is given, where keys of a type are asked for. -/
structure MappingKind.Collects (kind : MappingKind) (schema : Schema) (key : HostType)
    (given kept : List (HostValue × HostValue)) : Prop where
  /-- Of keys that are the same one is kept. -/
  keys : (kept.map (·.1)).Perm (firstOccurrences HostValue.same (given.map (·.1)))
  /-- No two keys are the same, whichever of them is asked for. -/
  apart : (kept.map (·.1)).Pairwise fun x y => x.same y = false ∧ y.same x = false
  /-- Under each key stands the value that was given last. -/
  last : ∀ k, k.Inhabits schema key →
    Assoc.get? HostValue.same kept k = Assoc.get? HostValue.same given.reverse k
  arranged : kind.Arranges given kept

theorem MappingKind.collects_collect {kind : MappingKind} {entries : List (HostValue × HostValue)}
    (hkind : kind = .sortedMap → key.Sortable schema)
    (hentries : ∀ entry ∈ entries, entry.1.Inhabits schema key) :
    kind.Collects schema key entries (kind.collect entries) := by
  have hsame := HostValue.equivOn schema key
  have hkeys : ∀ k ∈ entries.map (·.1), k.Inhabits schema key := List.forall_mem_map.mpr hentries
  have hapart {kept : List (HostValue × HostValue)}
      (hperm : (kept.map (·.1)).Perm (firstOccurrences HostValue.same (entries.map (·.1)))) :
      (kept.map (·.1)).Pairwise fun x y => x.same y = false ∧ y.same x = false :=
    hperm.symm.pairwise (Distinct.firstOccurrences_apart hsame hkeys) And.symm
  have hinserted : (Assoc.putAll HostValue.same [] entries).map (·.1) =
      firstOccurrences HostValue.same (entries.map (·.1)) :=
    (Assoc.keys_putAll _ [] entries).trans (Distinct.insertAll_eq_firstOccurrences hsame hkeys)
  have hlast (k : HostValue) (hk : k.Inhabits schema key) :=
    Assoc.get?_putAll hsame hentries hk
  cases kind with
  | hashMap => exact ⟨.of_eq hinserted, hapart (.of_eq hinserted), hlast, trivial⟩
  | orderedMap => exact ⟨.of_eq hinserted, hapart (.of_eq hinserted), hlast, hinserted⟩
  | sortedMap =>
    have hsortable := hkind rfl
    have horder := HostValue.orderOn hsortable
    have hequal {x y : HostValue} (hx : x.Inhabits schema key) (hy : y.Inhabits schema key)
        (h : x.same y = true) : x = y := hx.eq_of_same hy hsortable h
    have hperm := Sorted.keys_perm horder hsame hequal hentries
    exact ⟨hperm, hapart hperm, fun k hk => Sorted.get?_putAll horder hequal hentries hk,
      Sorted.ascending_putAll horder .nil (List.forall_mem_nil _) hentries⟩

/-- Maps of all kinds keep the same entries. -/
theorem MappingKind.Collects.perm {kind kind' : MappingKind}
    {given kept kept' : List (HostValue × HostValue)} (h : kind.Collects schema key given kept)
    (h' : kind'.Collects schema key given kept')
    (hgiven : ∀ entry ∈ given, entry.1.Inhabits schema key) : kept.Perm kept' := by
  have hkeys : ∀ k ∈ kept.map (·.1), k.Inhabits schema key := fun k hk => by
    obtain ⟨entry, hentry, rfl⟩ :=
      List.mem_map.mp (mem_of_mem_firstOccurrences (h.keys.mem_iff.mp hk))
    exact hgiven entry hentry
  have hdiffer {kind : MappingKind} {kept : List (HostValue × HostValue)}
      (h : kind.Collects schema key given kept) : Assoc.KeysDiffer HostValue.same kept :=
    List.pairwise_map.mp (h.apart.imp And.right)
  exact Assoc.perm_of_get?_eq (hdiffer h) (hdiffer h') (fun k hk => (hkeys k hk).same_self)
    (h.keys.trans h'.keys.symm)
    fun k hk => (h.last k (hkeys k hk)).trans (h'.last k (hkeys k hk)).symm

/-! ## Dicts -/

theorem decode_dict_eq (kind : MappingKind) :
    decode schema (.dict pairs) (.mapping kind key value) =
      (decodeEntries schema key value pairs).map fun entries =>
        .mapping kind (kind.collect entries) := by
  show (do
    return HostValue.mapping kind (kind.collect (← decodeEntries schema key value pairs))) = _
  cases decodeEntries schema key value pairs <;> rfl

/-- **Every kind of map.** The kind of a map never changes the association. All kinds refuse a dict
with the error of the first entry whose key, or else whose value, is refused; or all kinds that the
type of the keys can have take it, and hold the same entries. Their keys are those that the entries
of the dict are decoded to, each once and with the value of the last entry that has it. Ordered maps
list the keys in the order of first occurrence and sorted maps in strictly ascending order.

The type of the keys can be any, and so can be what it contains. Fields that no attribute belongs to
are compared too, and are asked to start with values of their types, as they do where structs are
declared in order (`Schema.InOrder.typed`). -/
theorem decode_dict_every_kind (key value : HostType) (hschema : schema.Typed)
    (hdict : (Value.dict pairs).WellFormed) :
    (∃ e, FirstEntryFails schema key value pairs e ∧
      ∀ kind, decode schema (.dict pairs) (.mapping kind key value) = .error e) ∨
    ∃ entries association, List.Forall₂ (DecodesEntry schema key value) pairs entries ∧
      ∀ kind, (kind = MappingKind.sortedMap → key.Sortable schema) →
        ∃ kept, decode schema (.dict pairs) (.mapping kind key value) = .ok (.mapping kind kept) ∧
          kept.Perm association ∧ kind.Collects schema key entries kept := by
  rcases ok_or_error (decodeEntries schema key value pairs) with ⟨entries, hok⟩ | ⟨e, herror⟩
  · have hentries := decodeEntries_eq_ok.mp hok
    have hkeys : ∀ entry ∈ entries, entry.1.Inhabits schema key := fun entry hentry => by
      obtain ⟨p, hp, hkey, -⟩ := forall₂_exists_left hentries entry hentry
      exact (hdict.of_mem_members p.1 (key_mem_keysAndValues hp)).decode_inhabits hschema hkey
    have hcollects (kind : MappingKind) (hkind : kind = .sortedMap → key.Sortable schema) :=
      MappingKind.collects_collect hkind hkeys
    refine .inr ⟨entries, MappingKind.hashMap.collect entries, hentries, fun kind hkind =>
      ⟨kind.collect entries, ?_, (hcollects kind hkind).perm (hcollects .hashMap nofun) hkeys,
        hcollects kind hkind⟩⟩
    rw [decode_dict_eq, hok]
    rfl
  · refine .inl ⟨e, decodeEntries_eq_error.mp herror, fun kind => ?_⟩
    rw [decode_dict_eq, herror]
    rfl

/-- Structs as keys, with a field that is reduced, so that two records become the same key. -/
theorem decode_dict_every_kind_reduced :
    let schema := Schema.empty.declare "Tick" [(.ofIdentifier "at", .wrapping .byte)] [] []
    let record (n : Int) : Value := .record "Tick" [("at", .int n)]
    let tick (n : Int) : HostValue :=
      .struct ⟨"Tick", [.ofIdentifier "at"], []⟩ [.wrapping .byte (.wrap .byte n)] []
    let dict : Value :=
      .dict [(record 2, .text "a"), (record 257, .text "b"), (record 1, .text "c")]
    schema.Typed ∧ dict.WellFormed ∧ (HostType.struct "Tick").Sortable schema ∧
      ∃ association, ∀ kind : MappingKind, ∃ kept,
        decode schema dict (.mapping kind (.struct "Tick") .string) = .ok (.mapping kind kept) ∧
          kept.Perm association ∧ kind.Collects schema (.struct "Tick")
            [(tick 2, .string "a"), (tick 1, .string "b"), (tick 1, .string "c")] kept := by
  intro schema record tick dict
  have hschema : schema.Typed :=
    (Schema.InOrder.declare .empty nofun (by simp [HostType.embedded])).typed
  have hrecord (n : Int) : (record n).WellFormed :=
    .record (by simp [Value.WellFormed.int]) (by simp; decide) (by simp)
  have hdict : dict.WellFormed := by
    refine .dict ?_ ?_ ?_ ?_
    · simp [hrecord]
    · simp [Value.WellFormed.text]
    · simp [record, Value.hashable, Value.attrsHashable]
    · simp [record, Assoc.KeysDiffer, Value.same, Value.attrsWithin]
  have hsortable : (HostType.struct "Tick").Sortable schema := by
    intro u hu
    cases hu with
    | self => rfl
    | field hslot hu =>
      obtain rfl := List.mem_singleton.mp hslot
      cases hu
      rfl
  refine ⟨hschema, hdict, hsortable, ?_⟩
  have houtcome := decode_dict_every_kind (.struct "Tick") .string hschema hdict
  rcases houtcome with ⟨e, -, herror⟩ | ⟨entries, association, hentries, hkinds⟩
  · cases herror .hashMap
  · obtain rfl := Except.ok.inj (decodeEntries_eq_ok.mpr hentries)
    exact ⟨association, fun kind => hkinds kind fun _ => hsortable⟩

/-- A sorted map lists the key first that comes last in an ordered one. -/
example :
    let dict : Value := .dict [(.int 2, .text "a"), (.int 257, .text "b"), (.int 1, .text "c")]
    let one : HostValue × HostValue := (.wrapping .byte (.wrap .byte 1), .string "c")
    let two : HostValue × HostValue := (.wrapping .byte (.wrap .byte 2), .string "a")
    decode .empty dict (.mapping .sortedMap (.wrapping .byte) .string) =
        .ok (.mapping .sortedMap [one, two]) ∧
      decode .empty dict (.mapping .orderedMap (.wrapping .byte) .string) =
        .ok (.mapping .orderedMap [two, one]) :=
  ⟨rfl, rfl⟩

end ScriptBridge
