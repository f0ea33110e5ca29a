import ScriptBridge.Proofs.Decoding.Faithful

/-!
# The parts that decoding goes through

A type converts the parts of a value one after the other, each on its own, and fails with the first
part that fails, naming the place. Only when all parts have been converted can it refuse the value
as a whole, and then the error has no place.

- `Visit`: a part of a value, its place, and the type to which it is converted. `HostType.visits`
  lists those of a value in order.
- `Refused`: the values that a type refuses as a whole, each with its error.
- `FailsBy`: the first visit that fails, or the refusal after all of them. `FailsBy.iff_split` says
  the same with the list split in two.
- `items_failsBy`, `entries_failsBy`, `members_failsBy`, `attrs_failsBy`: one lemma for each way in
  which decoders go through parts, whatever they do with the parts in the end.
-/

namespace ScriptBridge

variable {schema : Schema} {v : Value} {t : HostType} {e : ConvertError}

/-! ## Parts -/

/-- A part of a value that is converted on its own. -/
structure Visit where
  place : Place
  value : Value
  type : HostType

namespace Visit

def Converts (schema : Schema) (c : Visit) : Prop := ∃ x, decode schema c.value c.type = .ok x

/-- The items of a container, the first of which has an index. -/
def items (container : Kind) (type : HostType) (vs : List Value) (index : Nat) : List Visit :=
  (vs.zipIdx index).map fun (v, i) => ⟨.element container i, v, type⟩

/-- The keys and values of a dict, each key before its value. -/
def entries (key value : HostType) (pairs : List (Value × Value)) : List Visit :=
  pairs.flatMap fun (k, v) => [⟨.key k, k, key⟩, ⟨.entry k, v, value⟩]

/-- The values of a dict up to the first key that is no text. The keys become names as they are. -/
def members (pairs : List (Value × Value)) : List Visit :=
  (pairs.takeWhile (·.1.kind == .text)).map fun (k, v) => ⟨.entry k, v, .json⟩

/-- The attributes of a record that go to a field. -/
def attrs (d : StructDef) (attrs : List (String × Value)) : List Visit :=
  attrs.filterMap fun (name, v) =>
    (d.attrSlot? name).map fun (_, type) => ⟨.attr d.typeName name, v, type⟩

variable {d : StructDef} {name : String} {rest : List (String × Value)}

/-- Attributes that go to no field are passed over. -/
theorem attrs_cons_of_none (h : d.attrSlot? name = none) :
    attrs d ((name, v) :: rest) = attrs d rest := by
  simp [attrs, h]

theorem attrs_cons_of_some {index : Nat} (h : d.attrSlot? name = some (index, t)) :
    attrs d ((name, v) :: rest) = ⟨.attr d.typeName name, v, t⟩ :: attrs d rest := by
  simp [attrs, h]

end Visit

/-- The elements of a list, a tuple or a set. -/
def Value.elementVisits (type : HostType) : Value → List Visit
  | list items => Visit.items .list type items 0
  | tuple items => Visit.items .tuple type items 0
  | set items => Visit.items .set type items 0
  | _ => []

/-- The parts of a value that a type converts, in order. -/
def HostType.visits (schema : Schema) (v : Value) : HostType → List Visit
  | option t => t.visits schema v
  | pointer t => t.visits schema v
  | sequence _ item => v.elementVisits item
  | mapping _ key value =>
    match v with
    | .dict pairs => Visit.entries key value pairs
    | _ => []
  | struct name =>
    match v with
    | .record _ attrs => Visit.attrs (schema.lookup name) attrs
    | _ => []
  | dynamic =>
    match v with
    | .dict pairs => Visit.entries dynamic dynamic pairs
    | v => v.elementVisits dynamic
  | json =>
    match v with
    | .dict pairs => Visit.members pairs
    | .set _ => []
    | v => v.elementVisits json
  | _ => []

/-- Null has no parts. -/
theorem HostType.visits_null : t.visits schema .null = [] := by
  induction t with
  | option t ih => exact ih
  | pointer t ih => exact ih
  | _ => rfl

/-! ## Refusals -/

/-- The kinds of values that a type takes, or leaves to the type inside it. -/
def HostType.kinds : HostType → List Kind
  | bool => [.bool]
  | int _ => [.int]
  | wrapping _ => [.int]
  | bigInt => [.int]
  | single => [.float]
  | double => [.float]
  | string => [.text]
  | char => [.text]
  | bytes => [.bytes]
  | callable => [.callable]
  | script => Kind.all
  | dynamic => Kind.all.filter fun k => k != .callable && k != .record
  | json => Kind.all
  | option _ => Kind.all
  | pointer _ => Kind.all
  | sequence kind item =>
    if kind.takesBytes item then [.list, .tuple, .set, .bytes] else [.list, .tuple, .set]
  | mapping .. => [.dict]
  | struct _ => [.record]

/-- How many items a value has for a sequence that takes values of its kind. -/
def Value.itemCount? : Value → Option Nat
  | list items => some items.length
  | tuple items => some items.length
  | set items => some items.length
  | bytes bs => some bs.length
  | _ => none

/-- The values that a type refuses as a whole, each with its error. -/
inductive Refused : Value → HostType → ConvertError → Prop
  /-- The type takes no values of this kind. -/
  | kind {v : Value} {t : HostType} (h : v.kind ∉ t.kinds) : Refused v t (.wrongType v t)
  /-- The integer is out of range. -/
  | range {t : IntType} {n : Int} (h : ¬ t.InRange n) :
      Refused (.int n) (.int t) (.outOfRange (toString n) t.name)
  /-- The integer is out of both ranges that dynamic values have. -/
  | dynamicRange {n : Int} (hsigned : ¬ IntType.int64.InRange n)
      (hunsigned : ¬ IntType.uint64.InRange n) :
      Refused (.int n) .dynamic (.outOfRange (toString n) "i64 or u64")
  /-- The text has no character, or several. -/
  | characters {s : String} (h : s.length ≠ 1) :
      Refused (.text s) .char
        (.mismatch ("script string of length " ++ toString s.length) "native char")
  /-- The array has another length. -/
  | length {v : Value} {n count : Nat} {item : HostType}
      (hkind : v.kind ∈ (HostType.sequence (.array n) item).kinds)
      (hcount : v.itemCount? = some count) (hne : count ≠ n) :
      Refused v (.sequence (.array n) item)
        (.mismatch ("script " ++ v.typeName ++ " of length " ++ toString count)
          ("native " ++ (HostType.sequence (.array n) item).expected))
  /-- The name of a member would not be a text. -/
  | key {pairs : List (Value × Value)} {p : Value × Value}
      (h : pairs.find? (·.1.kind != .text) = some p) :
      Refused (.dict pairs) .json
        (.mismatch ("script " ++ p.1.typeName ++ " dict key") "native string key")
  | option {v : Value} {t : HostType} {e : ConvertError} (hv : v ≠ .null) (h : Refused v t e) :
      Refused v (.option t) e
  | pointer {v : Value} {t : HostType} {e : ConvertError} (h : Refused v t e) :
      Refused v (.pointer t) e

/-- No kind is left out. -/
theorem Kind.mem_all (k : Kind) : k ∈ Kind.all := by
  cases k <;> decide

/-- A refusal has no place. -/
theorem Refused.ne_within (h : Refused v t e) (place : Place) (cause : ConvertError) :
    e ≠ .within place cause := by
  induction h with
  | option _ _ ih => exact ih
  | pointer _ ih => exact ih
  | _ => nofun

/-- Values of other kinds are refused for their kind alone. -/
theorem refused_of_not_mem_kinds (hkind : v.kind ∉ t.kinds) :
    Refused v t e ↔ e = .wrongType v t := by
  constructor
  · intro h
    cases h with
    | kind h => rfl
    | length h => exact absurd h hkind
    | option | pointer => exact absurd (Kind.mem_all _) hkind
    | _ => exact absurd (by simp [Value.kind, HostType.kinds, Kind.all]) hkind
  · rintro rfl
    exact .kind hkind

theorem refused_pointer : Refused v (.pointer t) e ↔ Refused v t e := by
  refine ⟨fun h => ?_, .pointer⟩
  cases h with
  | kind h => exact absurd v.kind.mem_all h
  | pointer h => exact h

theorem refused_option : Refused v (.option t) e ↔ v ≠ .null ∧ Refused v t e := by
  refine ⟨fun h => ?_, fun h => .option h.1 h.2⟩
  cases h with
  | kind h => exact absurd v.kind.mem_all h
  | option hv h => exact ⟨hv, h⟩

/-! ## The first failure -/

/-- The first visit that fails gives the error, put at its place; after all of them the error is one
of the value as a whole. -/
inductive FailsBy (schema : Schema) (whole : ConvertError → Prop) : List Visit → ConvertError → Prop
  | whole {e : ConvertError} (h : whole e) : FailsBy schema whole [] e
  | here {c : Visit} {rest : List Visit} {cause : ConvertError}
      (h : decode schema c.value c.type = .error cause) :
      FailsBy schema whole (c :: rest) (.within c.place cause)
  | later {c : Visit} {rest : List Visit} {e : ConvertError} (hc : c.Converts schema)
      (h : FailsBy schema whole rest e) : FailsBy schema whole (c :: rest) e

variable {whole : ConvertError → Prop} {c : Visit} {visits rest : List Visit}

theorem failsBy_nil : FailsBy schema whole [] e ↔ whole e :=
  ⟨fun | .whole h => h, .whole⟩

/-- The same with the visits split at the first that fails. -/
theorem FailsBy.iff_split :
    FailsBy schema whole visits e ↔
      (∃ before c after cause, visits = before ++ c :: after ∧
        (∀ b ∈ before, b.Converts schema) ∧ decode schema c.value c.type = .error cause ∧
        e = .within c.place cause) ∨
      (∀ c ∈ visits, c.Converts schema) ∧ whole e := by
  constructor
  · intro h
    induction h with
    | whole h => exact .inr ⟨nofun, h⟩
    | @here c rest cause h => exact .inl ⟨[], c, rest, cause, rfl, nofun, h, rfl⟩
    | @later c rest e hc _ ih =>
      rcases ih with ⟨before, c', after, cause, rfl, hbefore, hcause, rfl⟩ | ⟨hall, hwhole⟩
      · exact .inl ⟨c :: before, c', after, cause, rfl, List.forall_mem_cons.mpr ⟨hc, hbefore⟩,
          hcause, rfl⟩
      · exact .inr ⟨List.forall_mem_cons.mpr ⟨hc, hall⟩, hwhole⟩
  · rintro (⟨before, c, after, cause, rfl, hbefore, hcause, rfl⟩ | ⟨hall, hwhole⟩)
    · induction before with
      | nil => exact .here hcause
      | cons b before ih =>
        obtain ⟨hb, hbefore⟩ := List.forall_mem_cons.mp hbefore
        exact .later hb (ih hbefore)
    · induction visits with
      | nil => exact .whole hwhole
      | cons c rest ih =>
        obtain ⟨hc, hall⟩ := List.forall_mem_cons.mp hall
        exact .later hc (ih hall)

theorem failsBy_congr {whole' : ConvertError → Prop} (h : whole e ↔ whole' e) :
    FailsBy schema whole visits e ↔ FailsBy schema whole' visits e := by
  rw [FailsBy.iff_split, FailsBy.iff_split, h]

/-- A chain that starts with the conversion of a part fails at that part, or as the rest of it. -/
theorem locate_bind_failsBy {α β : Type} {first : Except ConvertError α}
    {next : α → Except ConvertError β}
    (hfirst : ∀ cause, first = .error cause ↔ decode schema c.value c.type = .error cause)
    (hnext : ∀ a, next a = .error e ↔ FailsBy schema whole rest e) :
    ConvertError.locate c.place first >>= next = .error e ↔
      FailsBy schema whole (c :: rest) e := by
  rw [bind_eq_error, ConvertError.locate_eq_error]
  constructor
  · rintro (⟨cause, hcause, rfl⟩ | ⟨a, ha, h⟩)
    · exact .here ((hfirst cause).mp hcause)
    · refine .later ?_ ((hnext a).mp h)
      -- the part is converted, as its conversion is no error
      rcases ok_or_error (decode schema c.value c.type) with hok | ⟨cause, hcause⟩
      · exact hok
      · rw [ConvertError.locate_eq_ok, (hfirst cause).mpr hcause] at ha
        cases ha
  · intro h
    cases h with
    | here hcause => exact .inl ⟨_, (hfirst _).mpr hcause, rfl⟩
    | later hc h =>
      obtain ⟨x, hx⟩ := hc
      rcases ok_or_error first with ⟨a, ha⟩ | ⟨cause, hcause⟩
      · exact .inr ⟨a, ConvertError.locate_eq_ok.mpr ha, (hnext a).mpr h⟩
      · rw [(hfirst cause).mp hcause] at hx
        cases hx

/-- A dynamic value is refused as the dynamic decoder refuses it. -/
theorem decode_dynamic_eq_error :
    decode schema v .dynamic = .error e ↔ v.dynamic = .error e := by
  rw [decode_of_isWhole rfl, decodeLeaf, bind_pure_eq_error]

/-- A document is refused as the open decoder refuses it. -/
theorem decode_json_eq_error : decode schema v .json = .error e ↔ v.document = .error e := by
  rw [decode_of_isWhole rfl, decodeLeaf, bind_pure_eq_error]

section Loops

variable {α β γ : Type}

/-- Going through the items of a container. -/
theorem items_failsBy {convert : Value → Except ConvertError α}
    {loop : List Value → Nat → Except ConvertError (List α)} {container : Kind}
    {finish : List α → Except ConvertError γ} {vs : List Value} {index : Nat}
    (hnil : ∀ index, loop [] index = .ok [])
    (hcons : ∀ v rest index, loop (v :: rest) index = (do
      let x ← ConvertError.locate (.element container index) (convert v)
      let xs ← loop rest (index + 1)
      return x :: xs))
    (hconvert : ∀ v cause, convert v = .error cause ↔ decode schema v t = .error cause)
    (hfinish : ∀ xs, xs.length = vs.length → (finish xs = .error e ↔ whole e)) :
    loop vs index >>= finish = .error e ↔
      FailsBy schema whole (Visit.items container t vs index) e := by
  induction vs generalizing index finish with
  | nil =>
    rw [hnil, Visit.items, List.zipIdx_nil, List.map_nil, failsBy_nil]
    exact hfinish [] rfl
  | cons v rest ih =>
    rw [hcons, Visit.items, List.zipIdx_cons, List.map_cons]
    simp only [bind_assoc, pure_bind]
    exact locate_bind_failsBy (c := ⟨.element container index, v, t⟩) (hconvert v) fun x =>
      ih fun xs hxs => hfinish (x :: xs) (by simp [hxs])

/-- Going through the entries of a dict. -/
theorem entries_failsBy {convertKey : Value → Except ConvertError α}
    {convertValue : Value → Except ConvertError β}
    {loop : List (Value × Value) → Except ConvertError (List (α × β))} {key value : HostType}
    {finish : List (α × β) → Except ConvertError γ} {pairs : List (Value × Value)}
    (hnil : loop [] = .ok [])
    (hcons : ∀ k v rest, loop ((k, v) :: rest) = (do
      let x ← ConvertError.locate (.key k) (convertKey k)
      let y ← ConvertError.locate (.entry k) (convertValue v)
      let entries ← loop rest
      return (x, y) :: entries))
    (hkey : ∀ k cause, convertKey k = .error cause ↔ decode schema k key = .error cause)
    (hvalue : ∀ v cause, convertValue v = .error cause ↔ decode schema v value = .error cause)
    (hfinish : ∀ entries, finish entries = .error e ↔ whole e) :
    loop pairs >>= finish = .error e ↔
      FailsBy schema whole (Visit.entries key value pairs) e := by
  induction pairs generalizing finish with
  | nil =>
    rw [hnil, Visit.entries, List.flatMap_nil, failsBy_nil]
    exact hfinish []
  | cons p rest ih =>
    obtain ⟨k, v⟩ := p
    rw [hcons, Visit.entries, List.flatMap_cons]
    simp only [bind_assoc, pure_bind]
    exact locate_bind_failsBy (c := ⟨.key k, k, key⟩) (hkey k) fun x =>
      locate_bind_failsBy (c := ⟨.entry k, v, value⟩) (hvalue v) fun y =>
        ih fun entries => hfinish ((x, y) :: entries)

/-- Going through the entries of a dict for the members of an object. The first key that is no text
ends it, once the values before it have been converted. -/
theorem members_failsBy {pairs : List (Value × Value)}
    (hwhole : whole e ↔ ∃ p, pairs.find? (·.1.kind != .text) = some p ∧
      e = .mismatch ("script " ++ p.1.typeName ++ " dict key") "native string key") :
    Value.memberDocuments pairs = .error e ↔
      FailsBy schema whole (Visit.members pairs) e := by
  induction pairs with
  | nil =>
    rw [Value.memberDocuments, Visit.members, List.takeWhile_nil, List.map_nil, failsBy_nil, hwhole]
    simp
  | cons p rest ih =>
    obtain ⟨k, v⟩ := p
    cases k with
    | text name =>
      rw [Value.memberDocuments]
      refine locate_bind_failsBy (c := ⟨.entry (.text name), v, .json⟩)
        (fun cause => decode_json_eq_error.symm) fun j => ?_
      rw [bind_pure_eq_error]
      exact ih hwhole
    | _ =>
      show Except.error _ = Except.error e ↔ FailsBy schema whole [] e
      rw [failsBy_nil, hwhole, List.find?_cons_of_pos rfl]
      simp [eq_comm]

/-- Going through the attributes of a record, which nothing can end but the failure of one. -/
theorem attrs_failsBy {d : StructDef} {attrs : List (String × Value)} {stored : List HostValue}
    (hwhole : ¬ whole e) :
    decodeAttrs schema d attrs stored = .error e ↔
      FailsBy schema whole (Visit.attrs d attrs) e := by
  induction attrs generalizing stored with
  | nil =>
    rw [decodeAttrs, Visit.attrs, List.filterMap_nil, failsBy_nil]
    exact iff_of_false ok_ne_error hwhole
  | cons attr rest ih =>
    obtain ⟨name, v⟩ := attr
    cases hslot : d.attrSlot? name with
    | none =>
      rw [decodeAttrs, hslot, Visit.attrs_cons_of_none hslot]
      exact ih
    | some slot =>
      obtain ⟨index, t⟩ := slot
      rw [decodeAttrs, hslot, Visit.attrs_cons_of_some hslot]
      exact locate_bind_failsBy (c := ⟨.attr d.typeName name, v, t⟩) (fun _ => Iff.rfl)
        fun x => ih

end Loops

end ScriptBridge
