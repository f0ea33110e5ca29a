import ScriptBridge.Proofs.Decoding.Open

/-!
# From a document to a script and back

A document that is sent to a script and read back is the same document, but for numbers: the open
decoder writes integers above the signed ones of 64 bits as text. The open encoder has put members
in order by then, and has turned floats into integers. Neither way is anything lost.

- `Json.ofInteger`, `Json.ofFloat`: numbers as the open decoder and the open encoder leave them.
- `Json.reread`: a document with its numbers as they are read back.
- `Json.document_value`: the document of the script value of a document.
- `Json.size`, `Json.KeepsParts`: each part is still there, at its depth, and there are no others.
  `Json.reread_members` and `Json.sorted_members` say so of members.
- `Json.decodeOpen_encode`: a document through either encoder and back.
-/

namespace ScriptBridge

namespace Json

variable {j : Json}

/-! ## Reading numbers back -/

/-- An integer: a number of a document if it is a signed one of 64 bits, and else its decimal
digits. -/
def ofInteger (n : Int) : Json :=
  if h : IntType.int64.InRange n then int (.ofSigned ⟨n, h⟩) else str (toString n)

/-- A floating number: the integer that it is, else itself. -/
def ofFloat (x : JsonFloat) : Json :=
  match x.val.integral? with
  | some n => ofInteger n
  | none => float x

section

variable (number : JsonFloat → Json)

mutual

/-- A document with its numbers as they are read back: integers above the signed ones of 64 bits are
their decimal digits. -/
def reread : Json → Json
  | null => null
  | bool b => bool b
  | int n => if n.val ≤ IntType.int64.greatest then int n else str (toString n.val)
  | float x => number x
  | str s => str s
  | arr items => arr (rereadItems items)
  | obj members => obj (rereadMembers members)

/-- Items with their numbers as they are read back. -/
def rereadItems : List Json → List Json
  | [] => []
  | j :: rest => reread j :: rereadItems rest

/-- Members with their numbers as they are read back, under the same names. -/
def rereadMembers : List (String × Json) → List (String × Json)
  | [] => []
  | (name, j) :: rest => (name, reread j) :: rereadMembers rest

end

theorem rereadItems_eq_map (items : List Json) :
    rereadItems number items = items.map (reread number) :=
  eq_map_of_cons (rereadItems number) rfl fun _ _ => rfl

theorem rereadMembers_eq_map (members : List (String × Json)) :
    rereadMembers number members = members.map fun m => (m.1, m.2.reread number) :=
  eq_map_of_cons (rereadMembers number) rfl fun _ _ => rfl

end

theorem intDocument_eq (n : Int) : Value.intDocument n = ofInteger n := by
  rw [Value.intDocument, Fixed.ofInt?, ofInteger, ← Value.repr_int]
  by_cases hn : IntType.int64.InRange n
  · rw [dif_pos hn, dif_pos hn]
  · rw [dif_neg hn, dif_neg hn]

/-- An integer of a document is not below the signed ones. -/
theorem ofInteger_val (n : JsonInteger) :
    ofInteger n.val = if n.val ≤ IntType.int64.greatest then int n else str (toString n.val) := by
  rw [ofInteger]
  by_cases hn : n.val ≤ IntType.int64.greatest
  · rw [if_pos hn, dif_pos ⟨n.inRange.1, hn⟩]
    rfl
  · rw [if_neg hn, dif_neg fun h => hn h.2]

theorem floatDocument_val (x : JsonFloat) : Value.floatDocument x.val = float x := by
  rw [Value.floatDocument, JsonFloat.ofBinary?, dif_pos x.isFinite]

theorem document_float (x : JsonFloat) : (Value.float x.val).document = .ok (float x) :=
  congrArg Except.ok (floatDocument_val x)

theorem document_openNumber (x : JsonFloat) :
    (openNumber x.val).document = .ok (ofFloat x) := by
  rw [openNumber, ofFloat]
  cases x.val.integral? with
  | some n => exact congrArg Except.ok (intDocument_eq n)
  | none => exact document_float x

/-- The script value of a document has that document, but for its numbers. -/
theorem document_value {number : JsonFloat → Value} {back : JsonFloat → Json}
    (hnumber : ∀ x, (number x).document = .ok (back x)) (j : Json) :
    (j.value number).document = .ok (j.reread back) := by
  induction j with
  | float x => exact hnumber x
  | int n => rw [value, reread, Value.document, intDocument_eq, ofInteger_val]
  | arr items ih =>
    refine bind_eq_ok.mpr ⟨_, Value.itemDocuments_eq_ok.mpr ?_, rfl⟩
    simpa only [itemValues_eq_map, rereadItems_eq_map, List.forall₂_map_left_iff,
      List.forall₂_map_right_iff, List.forall₂_same] using ih
  | obj members ih =>
    refine bind_eq_ok.mpr ⟨_, Value.memberDocuments_eq_ok.mpr ?_, rfl⟩
    simp only [memberValues_eq_map, rereadMembers_eq_map, List.forall₂_map_left_iff,
      List.forall₂_map_right_iff, List.forall₂_same]
    exact fun m hm => ⟨rfl, ih m hm⟩
  | _ => rfl

/-! ## Nothing is lost -/

mutual

/-- How many parts a document has, itself included. -/
def size : Json → Nat
  | null => 1
  | bool _ => 1
  | int _ => 1
  | float _ => 1
  | str _ => 1
  | arr items => itemsSize items + 1
  | obj members => membersSize members + 1

/-- How many parts items have. -/
def itemsSize : List Json → Nat
  | [] => 0
  | j :: rest => size j + itemsSize rest

/-- How many parts members have. -/
def membersSize : List (String × Json) → Nat
  | [] => 0
  | (_, j) :: rest => size j + membersSize rest

end

theorem membersSize_eq (ms : List (String × Json)) : membersSize ms = itemsSize (ms.map (·.2)) := by
  induction ms with
  | nil => rfl
  | cons m rest ih => rw [membersSize, ih, List.map_cons, itemsSize]

/-- Parts are counted member by member. -/
theorem size_eq (j : Json) : j.size = itemsSize j.members + 1 := by
  cases j with
  | obj ms => rw [size, membersSize_eq, members]
  | _ => rfl

/-- In whatever order members are counted, there are as many parts. -/
theorem itemsSize_perm {items items' : List Json} (h : items.Perm items') :
    itemsSize items = itemsSize items' := by
  induction h with
  | nil => rfl
  | cons j _ ih => rw [itemsSize, itemsSize, ih]
  | swap j j' rest => simp only [itemsSize, Nat.add_left_comm]
  | trans _ _ ih ih' => exact ih.trans ih'

theorem itemsSize_map {change : Json → Json} {items : List Json}
    (h : ∀ j ∈ items, (change j).size = j.size) :
    itemsSize (items.map change) = itemsSize items := by
  induction items with
  | nil => rfl
  | cons j rest ih =>
    obtain ⟨hj, hrest⟩ := List.forall_mem_cons.mp h
    rw [List.map_cons, itemsSize, itemsSize, hj, ih hrest]

/-- Whatever a document has as a part, the changed document has, changed, at the same depth; and
there are as many parts as before. -/
def KeepsParts (change : Json → Json) (j : Json) : Prop :=
  (∀ n part, Part members n part j → Part members n (change part) (change j)) ∧
    (change j).size = j.size

/-- A change that goes through members keeps all parts. -/
theorem keepsParts_of_members {change : Json → Json}
    (h : ∀ j, (change j).members.Perm (j.members.map change)) (j : Json) :
    KeepsParts change j := by
  constructor
  · intro n part hpart
    induction hpart with
    | self => exact .self _
    | deeper hmember _ ih =>
      exact .deeper ((h _).mem_iff.mpr (List.mem_map.mpr ⟨_, hmember, rfl⟩)) ih
  · have hmembers {j : Json} (ih : ∀ m ∈ j.members, (change m).size = m.size) :
        (change j).size = j.size := by
      rw [size_eq, size_eq j, itemsSize_perm (h j), itemsSize_map ih]
    induction j with
    | arr items ih => exact hmembers ih
    | obj ms ih => exact hmembers (List.forall_mem_map.mpr ih)
    | _ => exact hmembers nofun

/-- Members are read back one by one. -/
theorem reread_members {number : JsonFloat → Json} (hnumber : ∀ x, (number x).members = [])
    (j : Json) : (j.reread number).members = j.members.map (reread number) := by
  cases j with
  | arr items =>
    rw [reread, rereadItems_eq_map]
    rfl
  | obj ms =>
    rw [reread, rereadMembers_eq_map, members, members, List.map_map, List.map_map]
    rfl
  | float x => exact hnumber x
  | int n =>
    rw [reread]
    split <;> rfl
  | _ => rfl

/-- Members are sorted one by one, and then change places. -/
theorem sorted_members (j : Json) : j.sorted.members.Perm (j.members.map sorted) := by
  cases j with
  | arr items =>
    rw [sorted, sortedItems_eq_map]
    rfl
  | obj ms =>
    have hperm := (List.mergeSort_perm (sortedMembers ms) nameLe).map (·.2)
    rw [sorted, members, members]
    refine hperm.trans ?_
    rw [sortedMembers_eq_map, List.map_map, List.map_map]
    rfl
  | _ => rfl

theorem ofFloat_members (x : JsonFloat) : (ofFloat x).members = [] := by
  rw [ofFloat]
  cases x.val.integral? with
  | some n =>
    change (ofInteger n).members = []
    rw [ofInteger]
    split <;> rfl
  | none => rfl

/-! ## There and back -/

/-- **A document through either encoder and back.** A document whose objects have each name once and
that is not nested too deeply is read back, after the strict encoder, with each integer above the
signed ones of 64 bits as its decimal digits; after the open encoder also with its members in the
order of their names and each float that is an integer as that integer. Every part of it is still
there. -/
theorem decodeOpen_encode (hnames : j.NamesDiffer) (hdeep : NestedWithin members 256 j) :
    (∃ v, encode j.tree .any = .ok v ∧ decodeOpen v = .ok (j.reread float)) ∧
      (∃ v, encodeOpen j.tree = .ok v ∧ decodeOpen v = .ok (j.sorted.reread ofFloat)) ∧
      KeepsParts (reread float) j ∧ KeepsParts (fun j => j.sorted.reread ofFloat) j := by
  refine ⟨⟨_, encodeAt_tree hnames hdeep (by decide), ?_⟩,
    ⟨_, openAt_tree hnames hdeep (by decide), document_value document_openNumber _⟩, ?_, ?_⟩
  · exact document_value document_float j
  · exact keepsParts_of_members (fun j => .of_eq (reread_members (fun _ => rfl) j)) j
  · refine keepsParts_of_members (fun j => ?_) j
    have hperm := j.sorted_members.map (reread ofFloat)
    rw [List.map_map] at hperm
    rw [reread_members ofFloat_members]
    exact hperm

/-- Above the signed integers, and two as a float: under the first name and the last. -/
theorem decodeOpen_encode_numbers :
    let big : JsonInteger := ⟨9223372036854775808, by decide⟩
    let two : JsonFloat := ⟨.ofBits .double 0x4000000000000000, by decide⟩
    let digits := str "9223372036854775808"
    let j := obj [("z", int big), ("a", float two)]
    j.NamesDiffer ∧ NestedWithin members 256 j ∧
      (∃ v, encode j.tree .any = .ok v ∧
        decodeOpen v = .ok (obj [("z", digits), ("a", float two)])) ∧
      ∃ v, encodeOpen j.tree = .ok v ∧
        decodeOpen v = .ok (obj [("a", int ⟨2, by decide⟩), ("z", digits)]) := by
  intro big two digits j
  have hnames : j.NamesDiffer := by
    intro n ms hpart
    change Part members n (obj ms) (obj [("z", int big), ("a", float two)]) at hpart
    cases hpart with
    | self => decide
    | deeper hmember hpart =>
      rcases List.mem_pair.mp hmember with rfl | rfl
      · rcases hpart with _ | ⟨hmember, -⟩
        cases hmember
      · rcases hpart with _ | ⟨hmember, -⟩
        cases hmember
  have hdeep : NestedWithin members 256 j := by
    refine .of_forall_mem fun member hmember => ?_
    rcases List.mem_pair.mp hmember with rfl | rfl
    · exact .of_forall_mem nofun
    · exact .of_forall_mem nofun
  have hsorted : j.sorted = obj [("a", float two), ("z", int big)] := by
    have hle : nameLe ("z", int big) ("a", float two) = false := by decide
    simp [j, sorted, sortedMembers, List.mergeSort, hle]
  have htwo : ofFloat two = int ⟨2, by decide⟩ := by
    have hbits : two.val = .ofBits .double 0x4000000000000000 := rfl
    have hinteger : (Binary.ofBits .double 0x4000000000000000).integral? = some 2 := rfl
    rw [ofFloat, hbits, hinteger]
    rfl
  have hback : (obj [("a", float two), ("z", int big)]).reread ofFloat =
      obj [("a", int ⟨2, by decide⟩), ("z", digits)] := by
    rw [← htwo]
    rfl
  obtain ⟨hstrict, hopen, -, -⟩ := decodeOpen_encode hnames hdeep
  rw [hsorted, hback] at hopen
  exact ⟨hnames, hdeep, hstrict, hopen⟩

end Json

end ScriptBridge
