import ScriptBridge.Dynamic.Document
import ScriptBridge.Proofs.Decoding.Faithful
import ScriptBridge.Proofs.Decoding.Open
import ScriptBridge.Proofs.DynamicRoundTrip

/-!
# Two ways to a document

A script value becomes a document at once, or by way of a dynamic value. The first way goes by the
kinds of script values and prints what it cannot hold; the second forgets tuples and sets on the
way, takes larger integers, puts null for a float that is not finite and names the members of an
object by whatever key has a text. Where both know what to do they do the same, down to the order of
members.

- `Dynamic.itemDocuments_eq_ok`, `Dynamic.memberDocuments_eq_ok`: lists of members.
- `Value.JsonLike`: values that a document can hold without printing any part of them.
- `Value.SharesDocument`: both ways lead to one document.
- `Value.WellFormed.sharesDocument_dict`: a dict goes member by member.
- `Value.WellFormed.decodeOpen_eq_document`: the two ways meet for these values and for no others.
-/

namespace ScriptBridge

namespace Dynamic

/-- Items have documents when each has one. -/
theorem itemDocuments_eq_ok {ds : List Dynamic} {js : List Json} :
    itemDocuments ds = .ok js ↔ List.Forall₂ (fun d j => d.document = .ok j) ds js :=
  traverse_eq_ok (fun ds (_ : Unit) => itemDocuments ds) id (s := ()) (fun _ => rfl)
    fun _ _ _ _ => by simp only [itemDocuments, bind_eq_ok, pure_eq_ok]

/-- An entry is a member that has the text of its key for a name. -/
def DocumentsEntry (e : Dynamic × Dynamic) (m : String × Json) : Prop :=
  e.1.memberName = .ok m.1 ∧ e.2.document = .ok m.2

/-- Entries are members when each key has a text and each value a document. -/
theorem memberDocuments_eq_ok {entries : List (Dynamic × Dynamic)}
    {members : List (String × Json)} :
    memberDocuments entries = .ok members ↔ List.Forall₂ DocumentsEntry entries members :=
  entries_eq_ok memberDocuments rfl (fun _ _ _ => rfl) fun _ _ _ _ => Iff.rfl

end Dynamic

/-- Members whose names differ are all kept. -/
theorem Json.ofMembers_of_nodup {members : List (String × Json)}
    (h : (members.map (·.1)).Nodup) : ofMembers members = obj members :=
  congrArg obj (Assoc.putAll_of_keysDiffer (Assoc.keysDiffer_iff_nodup.mpr h))

namespace Value

variable {v : Value}

/-- Values that a document can hold as they are, up to tuples. -/
inductive JsonLike : Value → Prop
  | null : JsonLike null
  | bool (b : Bool) : JsonLike (bool b)
  | int {n : Int} (h : IntType.int64.InRange n) : JsonLike (int n)
  | float {x : Binary64} (h : x.isFinite = true) : JsonLike (float x)
  | text (s : String) : JsonLike (text s)
  | list {items : List Value} (h : ∀ v ∈ items, JsonLike v) : JsonLike (list items)
  | tuple {items : List Value} (h : ∀ v ∈ items, JsonLike v) : JsonLike (tuple items)
  | dict {entries : List (Value × Value)} (hkeys : ∀ e ∈ entries, e.1.kind = .text)
      (hvalues : ∀ e ∈ entries, JsonLike e.2) : JsonLike (dict entries)

/-- A value has a dynamic form and a document, and the dynamic form has the same document. -/
def SharesDocument (v : Value) : Prop :=
  ∃ d j, v.dynamic = .ok d ∧ v.document = .ok j ∧ d.document = .ok j

/-! ## Scalars -/

/-- An integer beyond 64 signed bits is printed by one way and refused or kept by the other. -/
theorem sharesDocument_int {n : Int} : (int n).SharesDocument ↔ IntType.int64.InRange n := by
  constructor
  · rintro ⟨d, j, hd, hj, hdj⟩
    by_contra hn
    have hprinted : intDocument n = .str (int n).repr := by
      rw [intDocument, Fixed.ofInt?, dif_neg hn]
    rcases dynamicInt_eq_ok.mp hd with ⟨hsigned, -⟩ | ⟨-, hunsigned, rfl⟩
    · exact hn hsigned
    · rw [document, hprinted] at hj
      cases hj
      cases hdj
  · intro hn
    refine ⟨_, _, dynamicInt_eq_ok.mpr (.inl ⟨hn, rfl⟩), rfl, ?_⟩
    rw [intDocument, Fixed.ofInt?, dif_pos hn]
    rfl

/-- A float that is not finite is printed by one way and null by the other. -/
theorem sharesDocument_float {x : Binary64} : (float x).SharesDocument ↔ x.isFinite = true := by
  constructor
  · rintro ⟨d, j, hd, hj, hdj⟩
    by_contra hx
    cases hd
    rw [document, floatDocument, JsonFloat.ofBinary?, dif_neg hx] at hj
    rw [Dynamic.document, Dynamic.floatDocument, JsonFloat.ofBinary?, dif_neg hx] at hdj
    cases hj
    cases hdj
  · intro hx
    refine ⟨_, _, rfl, rfl, ?_⟩
    rw [floatDocument, Dynamic.document, Dynamic.floatDocument, JsonFloat.ofBinary?, dif_pos hx]

/-! ## Containers -/

/-- Lists and tuples of the same items are one array. -/
theorem sharesDocument_items {items : List Value} (hv : v = list items ∨ v = tuple items) :
    v.SharesDocument ↔ ∀ u ∈ items, u.SharesDocument := by
  have hlists : v.SharesDocument ↔ ∃ ds js,
      List.Forall₂ (fun u d => u.dynamic = .ok d) items ds ∧
        List.Forall₂ (fun u j => u.document = .ok j) items js ∧
          List.Forall₂ (fun d j => d.document = .ok j) ds js := by
    constructor
    · rintro ⟨d, j, hd, hj, hdj⟩
      rcases hv with rfl | rfl
      all_goals
        obtain ⟨ds, hds, hd⟩ := bind_eq_ok.mp hd
        obtain rfl := pure_eq_ok.mp hd
        obtain ⟨js, hjs, hj⟩ := bind_eq_ok.mp hj
        obtain rfl := pure_eq_ok.mp hj
        obtain ⟨js', hjs', harr⟩ := bind_eq_ok.mp hdj
        obtain rfl := Json.arr.inj (pure_eq_ok.mp harr)
        exact ⟨ds, js', dynamicItems_eq_ok.mp hds, itemDocuments_eq_ok.mp hjs,
          Dynamic.itemDocuments_eq_ok.mp hjs'⟩
    · rintro ⟨ds, js, hds, hjs, hdjs⟩
      refine ⟨.list ds, .arr js, ?_, ?_,
        bind_eq_ok.mpr ⟨js, Dynamic.itemDocuments_eq_ok.mpr hdjs, rfl⟩⟩
      · rcases hv with rfl | rfl
        all_goals exact bind_eq_ok.mpr ⟨ds, dynamicItems_eq_ok.mpr hds, rfl⟩
      · rcases hv with rfl | rfl
        all_goals exact bind_eq_ok.mpr ⟨js, itemDocuments_eq_ok.mpr hjs, rfl⟩
  rw [hlists, forall₂_exists_triangle_iff]
  rfl

/-- Both ways take a text key for the name of a member; other keys are refused by one of them. -/
theorem sharesDocument_entry {p : Value × Value} :
    (∃ e m, DecodesEntry p e ∧ DocumentsEntry p m ∧ Dynamic.DocumentsEntry e m) ↔
      p.1.kind = .text ∧ p.2.SharesDocument := by
  obtain ⟨k, v⟩ := p
  constructor
  · rintro ⟨e, m, he, hm, hem⟩
    refine ⟨congrArg kind hm.1, e.2, m.2, he.2, hm.2, hem.2⟩
  · rintro ⟨hkey, d, j, hd, hj, hdj⟩
    cases k with
    | text name => exact ⟨(.str name, d), (name, j), ⟨rfl, hd⟩, ⟨rfl, hj⟩, rfl, hdj⟩
    | _ => cases hkey

/-- Both ways give the members of a dict the same names. -/
theorem names_eq_of_entries {pairs : List (Value × Value)} {entries : List (Dynamic × Dynamic)}
    {members members' : List (String × Json)} (hentries : List.Forall₂ DecodesEntry pairs entries)
    (hmembers : List.Forall₂ DocumentsEntry pairs members)
    (hmembers' : List.Forall₂ Dynamic.DocumentsEntry entries members') :
    members.map (·.1) = members'.map (·.1) := by
  refine map_eq_map_of_forall₂
    ((forall₂_comp (forall₂_comp hmembers.flip hentries) hmembers').imp ?_)
  rintro m m' ⟨e, ⟨p, hm, he⟩, hm'⟩
  have hkey : (text m.1).dynamic = .ok e.1 := hm.1 ▸ he.1
  have hname : Dynamic.memberName (.str m.1) = .ok m'.1 := Except.ok.inj hkey ▸ hm'.1
  exact Except.ok.inj hname

/-- What becomes of a dict is settled entry by entry: its keys are different texts, so that no name
comes twice. -/
theorem WellFormed.sharesDocument_dict {pairs : List (Value × Value)}
    (hv : (Value.dict pairs).WellFormed) :
    (Value.dict pairs).SharesDocument ↔ ∀ p ∈ pairs, p.1.kind = .text ∧ p.2.SharesDocument := by
  have hlists : (Value.dict pairs).SharesDocument ↔ ∃ entries members,
      List.Forall₂ DecodesEntry pairs entries ∧ List.Forall₂ DocumentsEntry pairs members ∧
        List.Forall₂ Dynamic.DocumentsEntry entries members := by
    constructor
    · rintro ⟨d, j, hd, hj, hdj⟩
      obtain ⟨entries, hentries, rfl⟩ := hv.dynamic_dict hd
      have hnames := hv.namesDiffer hj
      obtain ⟨members, hmembers, hj⟩ := bind_eq_ok.mp hj
      obtain rfl := pure_eq_ok.mp hj
      have hmembers := memberDocuments_eq_ok.mp hmembers
      obtain ⟨members', hmembers', hobj⟩ := bind_eq_ok.mp hdj
      have hmembers' := Dynamic.memberDocuments_eq_ok.mp hmembers'
      -- the second way gives the members the names of the first, so that it keeps them all
      have hsame := names_eq_of_entries hentries hmembers hmembers'
      rw [pure_eq_ok, Json.ofMembers_of_nodup (hsame ▸ hnames.nodup)] at hobj
      obtain rfl := Json.obj.inj hobj
      exact ⟨entries, members', hentries, hmembers, hmembers'⟩
    · rintro ⟨entries, members, hentries, hmembers, hboth⟩
      have hj : (Value.dict pairs).document = .ok (.obj members) :=
        document_eq_obj.mpr ⟨pairs, rfl, hmembers⟩
      refine ⟨.map entries, .obj members, ?_, hj, ?_⟩
      · cases hv with
        | dict _ _ hhash hdiffer =>
          exact (dynamic_dict_eq_ok hhash hdiffer).mpr ⟨entries, hentries, rfl⟩
      · refine bind_eq_ok.mpr ⟨members, Dynamic.memberDocuments_eq_ok.mpr hboth, ?_⟩
        rw [Json.ofMembers_of_nodup (hv.namesDiffer hj).nodup]
        rfl
  rw [hlists, forall₂_exists_triangle_iff]
  simp only [sharesDocument_entry]

/-! ## Whole values -/

/-- The two ways lead to one document exactly for the values that a document can hold. -/
theorem WellFormed.sharesDocument_iff (hv : v.WellFormed) : v.SharesDocument ↔ v.JsonLike := by
  induction v with
  | null => exact iff_of_true ⟨_, _, rfl, rfl, rfl⟩ .null
  | bool b => exact iff_of_true ⟨_, _, rfl, rfl, rfl⟩ (.bool b)
  | text s => exact iff_of_true ⟨_, _, rfl, rfl, rfl⟩ (.text s)
  | int n =>
    rw [sharesDocument_int]
    refine ⟨.int, fun h => ?_⟩
    cases h with
    | int hn => exact hn
  | float x =>
    rw [sharesDocument_float]
    refine ⟨.float, fun h => ?_⟩
    cases h with
    | float hx => exact hx
  | list items ih =>
    rw [sharesDocument_items (.inl rfl)]
    have hitems u (hu : u ∈ items) := ih u hu (hv.of_mem_members u hu)
    refine ⟨fun h => .list fun u hu => (hitems u hu).mp (h u hu), fun h => ?_⟩
    cases h with
    | list h => exact fun u hu => (hitems u hu).mpr (h u hu)
  | tuple items ih =>
    rw [sharesDocument_items (.inr rfl)]
    have hitems u (hu : u ∈ items) := ih u hu (hv.of_mem_members u hu)
    refine ⟨fun h => .tuple fun u hu => (hitems u hu).mp (h u hu), fun h => ?_⟩
    cases h with
    | tuple h => exact fun u hu => (hitems u hu).mpr (h u hu)
  | dict pairs ih =>
    rw [hv.sharesDocument_dict]
    have hvalues p (hp : p ∈ pairs) :=
      (ih p hp).2 (hv.of_mem_members p.2 (value_mem_keysAndValues hp))
    refine ⟨fun h => .dict (fun p hp => (h p hp).1) fun p hp => (hvalues p hp).mp (h p hp).2,
      fun h => ?_⟩
    cases h with
    | dict hkeys h => exact fun p hp => ⟨hkeys p hp, (hvalues p hp).mpr (h p hp)⟩
  | bytes =>
    -- an array of numbers by one way, and text by the other
    refine iff_of_false ?_ nofun
    rintro ⟨d, j, hd, hj, hdj⟩
    cases hd
    cases hj
    cases hdj
  | set =>
    refine iff_of_false ?_ nofun
    rintro ⟨d, j, hd, hj, hdj⟩
    obtain ⟨ds, -, hd⟩ := bind_eq_ok.mp hd
    obtain rfl := pure_eq_ok.mp hd
    obtain ⟨js, -, harr⟩ := bind_eq_ok.mp hdj
    obtain rfl := pure_eq_ok.mp harr
    cases hj
  | callable | record =>
    refine iff_of_false ?_ nofun
    rintro ⟨d, j, hd, -⟩
    cases hd

/-- **Both ways lead to the same document.** A well-formed value of null, truth values, integers of
64 signed bits, finite floats, texts, lists, tuples and dicts with texts for keys is decoded to a
dynamic value and to a document, and the document of the former is the latter, its members in the
same order. There is no other value of which that is true. -/
theorem WellFormed.decodeOpen_eq_document (schema : Schema) (hv : v.WellFormed) :
    v.JsonLike ↔ ∃ d j, decode schema v .dynamic = .ok (.dynamic d) ∧ decodeOpen v = .ok j ∧
      d.document = .ok j := by
  simp only [decode_dynamic_eq_dynamic]
  exact hv.sharesDocument_iff.symm

/-- A tuple with a dict in it, whose members keep their order. A set in its place is an array by one
way, and text by the other. -/
theorem WellFormed.decodeOpen_eq_document_tuple :
    let inner := Value.dict [(.text "b", .list [.float (.zero .double), .null]), (.text "a", .int 1)]
    let j := Json.arr [.obj [("b", .arr [.float ⟨.zero .double, by decide⟩, .null]),
      ("a", .int ⟨1, by decide⟩)]]
    let odd := Value.tuple [.set [.null]]
    ((Value.tuple [inner]).WellFormed ∧ ∃ d,
      decode .empty (Value.tuple [inner]) .dynamic = .ok (.dynamic d) ∧
        decodeOpen (Value.tuple [inner]) = .ok j ∧ d.document = .ok j) ∧
      odd.WellFormed ∧ ¬ ∃ d j, decode .empty odd .dynamic = .ok (.dynamic d) ∧
        decodeOpen odd = .ok j ∧ d.document = .ok j := by
  intro inner j odd
  have hinner : inner.WellFormed := by
    refine .dict ?_ ?_ ?_ ?_
    · simp [Value.WellFormed.text]
    · simp [Value.WellFormed.int]
      exact .list (by simp [Value.WellFormed.float, Value.WellFormed.null])
    · simp [hashable]
    · simp [Assoc.KeysDiffer, same]
  have hv : (Value.tuple [inner]).WellFormed := .tuple (List.forall_mem_singleton.mpr hinner)
  have hlike : (Value.tuple [inner]).JsonLike := by
    refine .tuple (List.forall_mem_singleton.mpr (.dict (by simp [kind]) ?_))
    refine List.forall_mem_cons.mpr ⟨.list ?_, List.forall_mem_singleton.mpr (.int (by decide))⟩
    exact List.forall_mem_cons.mpr ⟨.float (by decide), List.forall_mem_singleton.mpr .null⟩
  have hodd : odd.WellFormed := by
    refine .tuple (List.forall_mem_singleton.mpr (.set ?_ ?_ (List.pairwise_singleton _ _)))
    · exact List.forall_mem_singleton.mpr .null
    · exact List.forall_mem_singleton.mpr rfl
  refine ⟨⟨hv, ?_⟩, hodd, fun h => ?_⟩
  · obtain ⟨d, j', hd, hj', hdj⟩ := (hv.decodeOpen_eq_document .empty).mp hlike
    obtain rfl : j = j' := Except.ok.inj hj'
    exact ⟨d, hd, hj', hdj⟩
  · have hodd : (Value.tuple [.set [.null]]).JsonLike :=
      (hodd.decodeOpen_eq_document .empty).mpr h
    cases hodd with
    | tuple hitems => cases hitems _ (List.mem_singleton_self _)

end Value

end ScriptBridge
