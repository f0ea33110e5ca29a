import ScriptBridge.Decoding.Open
import ScriptBridge.Proofs.Encoding.Documents
import ScriptBridge.Proofs.Value.WellFormed

/-!
# Script values as documents

The open decoder enters lists, tuples and dicts, and refuses nothing there but a dict with a key
that is no text. What stands inside a set, a record or a key is printed, and nobody looks for such
dicts in it. The document, sent back, tells what has become of each part.

- `Value.opened`: the values that the decoder enters below a value.
- `Value.document_members`: the document of a value holds the documents of what is entered.
- `Value.document_eq_obj`: objects are the documents of dicts.
- `Value.TextKeys`, `Value.document_iff_textKeys`: what has a document.
- `Value.plain`: what is left of a value once it has been a document.
- `Value.value_of_document`, `Value.WellFormed.namesDiffer`: documents of well-formed values.
- `Value.WellFormed.encode_decodeOpen`: when a value has a document, and what that is sent back as.
-/

namespace ScriptBridge

namespace Value

variable {v : Value} {j : Json}

/-! ## One lemma for each list of members -/

/-- Items have documents when each has one. -/
theorem itemDocuments_eq_ok {container : Kind} {items : List Value} {index : Nat}
    {js : List Json} : itemDocuments container items index = .ok js ↔
      List.Forall₂ (fun v j => v.document = .ok j) items js :=
  items_eq_ok (itemDocuments container) (fun _ => by rw [itemDocuments]) fun _ _ _ => by
    rw [itemDocuments]

/-- An entry under a text is a member of that name. -/
def DocumentsEntry (e : Value × Value) (m : String × Json) : Prop :=
  e.1 = text m.1 ∧ e.2.document = .ok m.2

/-- Entries are members when each key is a text and each value has a document. -/
theorem memberDocuments_eq_ok {entries : List (Value × Value)} {members : List (String × Json)} :
    memberDocuments entries = .ok members ↔ List.Forall₂ DocumentsEntry entries members := by
  refine traverse_eq_ok (fun entries (_ : Unit) => memberDocuments entries) id (s := ())
    (fun _ => by rw [memberDocuments]) ?_
  rintro ⟨k, v⟩ rest - members
  cases k with
  | text name =>
    simp only [memberDocuments, bind_eq_ok, ConvertError.locate_eq_ok, pure_eq_ok]
    constructor
    · rintro ⟨j, hj, members', hmembers, rfl⟩
      exact ⟨(name, j), ⟨rfl, hj⟩, members', hmembers, rfl⟩
    · rintro ⟨⟨name', j⟩, ⟨hname, hj⟩, members', hmembers, rfl⟩
      obtain rfl := text.inj hname
      exact ⟨j, hj, members', hmembers, rfl⟩
  | _ =>
    constructor
    · intro h
      cases h
    · rintro ⟨_, hentry, -⟩
      cases hentry.1

/-! ## What has a document -/

/-- What the open decoder enters: items of lists and tuples, and values of dicts. -/
def opened : Value → List Value
  | list items => items
  | tuple items => items
  | dict entries => entries.map (·.2)
  | _ => []

/-- The document of a value holds those of what is entered. -/
theorem document_members (h : v.document = .ok j) :
    List.Forall₂ (fun v j => v.document = .ok j) v.opened j.members := by
  cases v with
  | list items | tuple items =>
    obtain ⟨js, hjs, hj⟩ := bind_eq_ok.mp h
    obtain rfl := pure_eq_ok.mp hj
    exact itemDocuments_eq_ok.mp hjs
  | dict entries =>
    obtain ⟨members, hmembers, hj⟩ := bind_eq_ok.mp h
    obtain rfl := pure_eq_ok.mp hj
    simp only [opened, Json.members, List.forall₂_map_left_iff, List.forall₂_map_right_iff]
    exact (memberDocuments_eq_ok.mp hmembers).imp fun _ _ hentry => hentry.2
  | int n =>
    rw [document, Except.ok.injEq, intDocument] at h
    split at h <;> subst h <;> exact .nil
  | float x =>
    rw [document, Except.ok.injEq, floatDocument] at h
    split at h <;> subst h <;> exact .nil
  | _ =>
    cases h
    exact .nil

/-- Only a dict of texts has an object for its document. -/
theorem document_eq_obj {members : List (String × Json)} :
    v.document = .ok (.obj members) ↔
      ∃ entries, v = dict entries ∧ List.Forall₂ DocumentsEntry entries members := by
  constructor
  · intro h
    cases v with
    | dict entries =>
      obtain ⟨_, hmembers, hj⟩ := bind_eq_ok.mp h
      obtain rfl := Json.obj.inj (pure_eq_ok.mp hj)
      exact ⟨entries, rfl, memberDocuments_eq_ok.mp hmembers⟩
    | list | tuple =>
      obtain ⟨_, -, hj⟩ := bind_eq_ok.mp h
      cases pure_eq_ok.mp hj
    | int n =>
      rw [document, Except.ok.injEq, intDocument] at h
      split at h <;> cases h
    | float x =>
      rw [document, Except.ok.injEq, floatDocument] at h
      split at h <;> cases h
    | _ => cases h
  · rintro ⟨entries, rfl, hentries⟩
    exact bind_eq_ok.mpr ⟨members, memberDocuments_eq_ok.mpr hentries, rfl⟩

/-- In every dict that is entered, all keys are texts. -/
def TextKeys (v : Value) : Prop :=
  ∀ n entries, Part opened n (dict entries) v → ∀ e ∈ entries, e.1.kind = .text

theorem TextKeys.of_mem {member : Value} (h : v.TextKeys) (hmember : member ∈ v.opened) :
    member.TextKeys :=
  fun n entries hpart => h (n + 1) entries (.deeper hmember hpart)

/-- A value has a document exactly when all keys in it are texts. -/
theorem document_iff_textKeys : (∃ j, v.document = .ok j) ↔ v.TextKeys := by
  constructor
  · rintro ⟨j, hj⟩ n entries hpart e he
    -- the part has a document, which is an object
    obtain ⟨j', -, hj'⟩ := hpart.transport (fun _ _ => document_members) hj
    obtain ⟨members, hmembers, -⟩ := bind_eq_ok.mp hj'
    obtain ⟨m, -, hkey, -⟩ := forall₂_exists_right (memberDocuments_eq_ok.mp hmembers) e he
    rw [hkey, kind]
  · intro hkeys
    induction v with
    | list items ih | tuple items ih =>
      obtain ⟨js, hjs⟩ := forall₂_exists_iff.mpr fun v hv => ih v hv (hkeys.of_mem hv)
      exact ⟨.arr js, bind_eq_ok.mpr ⟨js, itemDocuments_eq_ok.mpr hjs, rfl⟩⟩
    | dict entries ih =>
      have hmember : ∀ e ∈ entries, ∃ m, DocumentsEntry e m := by
        intro e he
        have hkind := hkeys 0 entries (.self _) e he
        obtain ⟨j, hj⟩ := (ih e he).2 (hkeys.of_mem (List.mem_map.mpr ⟨e, he, rfl⟩))
        obtain ⟨k, v⟩ := e
        cases k with
        | text name => exact ⟨(name, j), rfl, hj⟩
        | _ => cases hkind
      obtain ⟨members, hmembers⟩ := forall₂_exists_iff.mpr hmember
      exact ⟨.obj members, document_eq_obj.mpr ⟨entries, rfl, hmembers⟩⟩
    | _ => exact ⟨_, rfl⟩

/-! ## What is left of a value -/

mutual

/-- What is left of a value once it has been a document. Tuples are lists; whatever no document can
hold is its own printed form, which of an integer is its decimal digits. -/
def plain : Value → Value
  | null => null
  | bool b => bool b
  | int n => if IntType.int64.InRange n then int n else text (toString n)
  | float x => if x.isFinite then float x else text (float x).repr
  | text s => text s
  | bytes bs => text (bytes bs).repr
  | list items => list (plainItems items)
  | tuple items => list (plainItems items)
  | dict entries => dict (plainEntries entries)
  | set items => text (set items).repr
  | callable c => text (callable c).repr
  | record typeName attrs => text (record typeName attrs).repr

/-- What is left of items. -/
def plainItems : List Value → List Value
  | [] => []
  | v :: rest => plain v :: plainItems rest

/-- What is left of entries, whose keys stay. -/
def plainEntries : List (Value × Value) → List (Value × Value)
  | [] => []
  | (k, v) :: rest => (k, plain v) :: plainEntries rest

end

theorem plainItems_eq_map (items : List Value) : plainItems items = items.map plain :=
  eq_map_of_cons plainItems rfl fun _ _ => rfl

theorem plainEntries_eq_map (entries : List (Value × Value)) :
    plainEntries entries = entries.map fun e => (e.1, e.2.plain) :=
  eq_map_of_cons plainEntries rfl fun _ _ => rfl

/-- An integer is printed as its decimal digits, behind its sign. -/
theorem repr_int (n : Int) : (int n).repr = toString n := by
  have hchars : (int n).reprChars = (toString n).toList := by
    change intChars n = (Int.repr n).toList
    cases n with
    | ofNat n => rw [intChars, Int.repr, Nat.repr, String.toList_ofList]
    | negSucc n =>
      rw [intChars, Int.repr, Nat.repr, String.toList_append, String.toList_ofList,
        String.toList_ofList]
      rfl
  rw [repr, hchars, String.ofList_toList]

/-- The document of a value has the plain value. -/
theorem value_of_document (h : v.document = .ok j) :
    (j.value fun x => float x.val) = v.plain := by
  induction v generalizing j with
  | list items ih | tuple items ih =>
    obtain ⟨js, hjs, hj⟩ := bind_eq_ok.mp h
    obtain rfl := pure_eq_ok.mp hj
    rw [Json.value, Json.itemValues_eq_map, plain, plainItems_eq_map]
    have hitems := forall₂_imp_of_mem (itemDocuments_eq_ok.mp hjs) fun v hv j _ hj => ih v hv hj
    exact congrArg list (map_eq_map_of_forall₂ hitems.flip)
  | dict entries ih =>
    obtain ⟨members, hmembers, hj⟩ := bind_eq_ok.mp h
    obtain rfl := pure_eq_ok.mp hj
    rw [Json.value, Json.memberValues_eq_map, plain, plainEntries_eq_map]
    refine congrArg dict (map_eq_map_of_forall₂ (List.Forall₂.flip ?_))
    exact forall₂_imp_of_mem (memberDocuments_eq_ok.mp hmembers) fun e he m _ hentry =>
      Prod.ext hentry.1.symm ((ih e he).2 hentry.2)
  | int n =>
    rw [document, Except.ok.injEq, intDocument, Fixed.ofInt?] at h
    subst h
    rw [plain]
    by_cases hn : IntType.int64.InRange n
    · rw [dif_pos hn, if_pos hn]
      rfl
    · rw [dif_neg hn, if_neg hn, ← repr_int]
      rfl
  | float x =>
    rw [document, Except.ok.injEq, floatDocument, JsonFloat.ofBinary?] at h
    subst h
    rw [plain]
    by_cases hx : x.isFinite = true
    · rw [dif_pos hx, if_pos hx]
      rfl
    · rw [dif_neg hx, if_neg hx]
      rfl
  | _ =>
    cases h
    rfl

/-- What is entered are members. -/
theorem mem_members_of_mem_opened {member : Value} (h : member ∈ v.opened) :
    member ∈ v.members := by
  cases v with
  | list | tuple => exact h
  | dict entries =>
    obtain ⟨e, he, rfl⟩ := List.mem_map.mp h
    exact value_mem_keysAndValues he
  | _ => cases h

/-- The document of a well-formed value has each name once in every object. -/
theorem WellFormed.namesDiffer (hv : v.WellFormed) (h : v.document = .ok j) : j.NamesDiffer := by
  intro n members hpart
  have hmembers : ∀ (j : Json) (v : Value), v.WellFormed ∧ v.document = .ok j →
      List.Forall₂ (fun j v => v.WellFormed ∧ v.document = .ok j) j.members v.opened :=
    fun _ _ ⟨hv, h⟩ => (forall₂_imp_of_mem (document_members h) fun _ hm _ _ h =>
      ⟨hv.of_mem_members _ (mem_members_of_mem_opened hm), h⟩).flip
  -- the object is the document of a dict, whose keys are different texts
  obtain ⟨u, -, hu, hdocument⟩ := hpart.transport hmembers ⟨hv, h⟩
  obtain ⟨entries, rfl, hentries⟩ := document_eq_obj.mp hdocument
  cases hu with
  | dict _ _ _ hdiffer =>
    refine List.pairwise_map.mpr (forall₂_pairwise hentries hdiffer
      fun e _ m _ e' _ m' _ hm hm' hne hname => ?_)
    simp [hm.1, hm'.1, hname, same] at hne

/-- **Values as documents.** A well-formed value has a document exactly when all keys are texts in
every dict that can be reached through lists, tuples and the values of dicts. Unless the document is
nested too deeply, it is sent back as the plain form of the value. -/
theorem WellFormed.encode_decodeOpen (hv : v.WellFormed) :
    ((∃ j, decodeOpen v = .ok j) ↔
        ∀ n entries, Part opened n (Value.dict entries) v →
          ∀ e ∈ entries, e.1.kind = Kind.text) ∧
      ∀ j, decodeOpen v = .ok j → NestedWithin Json.members 256 j →
        encode j.tree .any = .ok v.plain := by
  refine ⟨document_iff_textKeys, fun j hj hdeep => ?_⟩
  rw [← value_of_document hj]
  exact Json.encodeAt_tree (hv.namesDiffer hj) hdeep (by decide)

/-- An integer too large and a dict that a record hides are printed; the same dict on its own is
refused. -/
theorem WellFormed.encode_decodeOpen_printed :
    let numbered := Value.dict [(.int 1, .null)]
    let v := Value.tuple
      [.int 9223372036854775808, .dict [(.text "b", .record "R" [("d", numbered)])]]
    let j := Json.arr [.str "9223372036854775808", .obj [("b", .str "R(d = \x7b1: None\x7d)")]]
    (v.WellFormed ∧ decodeOpen v = .ok j ∧
      encode j.tree .any = .ok (.list [.text "9223372036854775808",
        .dict [(.text "b", .text "R(d = \x7b1: None\x7d)")]])) ∧
      numbered.WellFormed ∧ ¬ ∃ j, decodeOpen numbered = .ok j := by
  intro numbered v j
  have hnumbered : numbered.WellFormed := by
    refine .dict ?_ ?_ ?_ (List.pairwise_singleton _ _)
    · exact List.forall_mem_singleton.mpr (.int 1)
    · exact List.forall_mem_singleton.mpr .null
    · exact List.forall_mem_singleton.mpr rfl
  have hrecord : (Value.record "R" [("d", numbered)]).WellFormed := by
    refine .record (List.forall_mem_singleton.mpr hnumbered) ?_ (by simp)
    exact List.forall_mem_singleton.mpr (by decide)
  have hv : v.WellFormed := by
    refine .tuple (List.forall_mem_cons.mpr ⟨.int _, List.forall_mem_singleton.mpr ?_⟩)
    refine .dict ?_ ?_ ?_ (List.pairwise_singleton _ _)
    · exact List.forall_mem_singleton.mpr (.text _)
    · exact List.forall_mem_singleton.mpr hrecord
    · exact List.forall_mem_singleton.mpr rfl
  have hj : decodeOpen v = .ok j := rfl
  have hdeep : NestedWithin Json.members 256 j := by
    refine .of_forall_mem fun item hitem => .of_forall_mem fun member hmember => ?_
    rcases List.mem_pair.mp hitem with rfl | rfl
    · cases hmember
    · obtain rfl := List.mem_singleton.mp hmember
      exact .of_forall_mem nofun
  refine ⟨⟨hv, hj, (encode_decodeOpen hv).2 j hj hdeep⟩, hnumbered, fun h => ?_⟩
  have hkind := (encode_decodeOpen hnumbered).1.mp h 0 _ (.self _) _ (List.mem_singleton_self _)
  cases hkind

end Value

end ScriptBridge
