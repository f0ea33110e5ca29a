import ScriptBridge.Binding.Arguments
import ScriptBridge.Proofs.Assoc
import ScriptBridge.Proofs.Outcome
import ScriptBridge.Proofs.Parallel

/-!
# What binding arguments means

When a call with positional and keyword arguments is accepted, and what the fields of the struct
hold afterwards.

- `tableFault?_eq_none`: a table is sound when its positions and its names differ.
- `Argument.isFor`, `Argument.claimant_eq_ok`: the entry that an argument reaches.
- `StructDef.Takes`, `StructDef.store_eq_ok`: a value in the field of an entry.
- `StructDef.Refuses`, `StructDef.store_eq_error`: a value that the field does not take.
- `bindOne_eq_ok`, `bindEach_eq_ok`: one argument lands in one field; a run of arguments lands one
  after the other, so that for each field the last of them counts.
- `FieldSpec.argument?`: which argument of a call that is.
- `mem_landings_iff_reached`: the entries that the arguments of a call land in.
- `StructDef.Accepts`, `StructDef.Filled`: the calls that a struct accepts, and its fields
  afterwards.
- `bindArguments_accepts`: binding succeeds exactly on the accepted calls, and fills the fields.
-/

namespace ScriptBridge

/-! ## Sound tables -/

/-- Two entries with different positions, as far as both have one. -/
def FieldSpec.PositionsDiffer (a b : FieldSpec) : Prop :=
  ∀ p, a.position = some p → b.position ≠ some p

/-- Two entries with different names, as far as both have one. -/
def FieldSpec.NamesDiffer (a b : FieldSpec) : Prop := ∀ n, a.name = some n → b.name ≠ some n

/-- An entry clashes with earlier ones when it shares its position or its name with one of them. -/
theorem FieldSpec.clash?_eq_none {earlier : List FieldSpec} {spec : FieldSpec} :
    spec.clash? earlier = none ↔
      ∀ o ∈ earlier, o.PositionsDiffer spec ∧ o.NamesDiffer spec := by
  rw [clash?]
  simp only [Option.orElse_eq_orElse, Option.orElse_eq_or, Option.or_eq_none_iff,
    Option.bind_eq_bind, Option.pure_def, Option.bind_eq_none_iff, reduceCtorEq, imp_false,
    ← Option.eq_none_iff_forall_ne_some, List.find?_eq_none, forall_and]
  refine and_congr ?_ ?_
  · simp only [PositionsDiffer]
    grind
  · simp only [NamesDiffer]
    grind

theorem tableFaultAfter?_eq_none {earlier table : List FieldSpec} :
    tableFaultAfter? earlier table = none ↔
      (∀ o ∈ earlier, ∀ spec ∈ table, o.PositionsDiffer spec ∧ o.NamesDiffer spec) ∧
        table.Pairwise fun a b => a.PositionsDiffer b ∧ a.NamesDiffer b := by
  induction table generalizing earlier with
  | nil => simp [tableFaultAfter?]
  | cons spec rest ih =>
    rw [tableFaultAfter?, Option.orElse_eq_orElse, Option.orElse_eq_or, Option.or_eq_none_iff,
      FieldSpec.clash?_eq_none, ih, List.pairwise_cons]
    simp only [List.mem_append, List.mem_cons]
    grind

/-- A table is sound when no two entries share a position and no two share a name. -/
theorem tableFault?_eq_none {table : List FieldSpec} :
    tableFault? table = none ↔
      table.Pairwise FieldSpec.PositionsDiffer ∧ table.Pairwise FieldSpec.NamesDiffer := by
  rw [tableFault?, tableFaultAfter?_eq_none, ← List.pairwise_and_iff]
  simp

/-! ## The entry that an argument reaches -/

/-- Where at most one member passes a test, the search finds that member. -/
theorem findIdx?_eq_some_of_differ {α : Type} {p : α → Bool} {l : List α} {i : Nat}
    (h : l.Pairwise fun a b => p a = true → p b = false) :
    l.findIdx? p = some i ↔ ∃ a, l[i]? = some a ∧ p a = true := by
  rw [List.findIdx?_eq_some_iff_getElem]
  constructor
  · rintro ⟨hi, hp, -⟩
    exact ⟨l[i], List.getElem?_eq_getElem hi, hp⟩
  · rintro ⟨a, ha, hp⟩
    obtain ⟨hi, rfl⟩ := List.getElem?_eq_some_iff.mp ha
    refine ⟨hi, hp, fun j hji hj => ?_⟩
    have := List.pairwise_iff_getElem.mp h j i (Nat.lt_trans hji hi) hi hji hj
    simp [hp] at this

namespace Argument

/-- Whether an argument is meant for an entry. -/
def isFor (spec : FieldSpec) : Argument → Bool
  | positional index _ => spec.position == some index
  | keyword name _ => spec.name == some name

/-- In a sound table an argument reaches the entry that it is meant for. -/
theorem claimant_eq_ok {table : List FieldSpec} (hsound : tableFault? table = none)
    {arg : Argument} {i : Nat} :
    arg.claimant table = .ok i ↔ ∃ spec, table[i]? = some spec ∧ arg.isFor spec = true := by
  obtain ⟨hpositions, hnames⟩ := tableFault?_eq_none.mp hsound
  cases arg with
  | positional index v =>
    have hdiffer : table.Pairwise fun a b =>
        (a.position == some index) = true → (b.position == some index) = false :=
      hpositions.imp fun h ha => by simpa using h index (by simpa using ha)
    rw [← findIdx?_eq_some_of_differ (p := fun spec => isFor spec (positional index v)) hdiffer]
    simp only [claimant, isFor]
    cases table.findIdx? (·.position == some index) <;> simp
  | keyword name v =>
    have hdiffer : table.Pairwise fun a b =>
        (a.name == some name) = true → (b.name == some name) = false :=
      hnames.imp fun h ha => by simpa using h name (by simpa using ha)
    rw [← findIdx?_eq_some_of_differ (p := fun spec => isFor spec (keyword name v)) hdiffer]
    simp only [claimant, isFor]
    cases table.findIdx? (·.name == some name) <;> simp

end Argument

/-! ## One argument, and a run of them -/

/-- An entry takes a value when it has storage and the type of its field decodes the value. -/
def StructDef.Takes (schema : Schema) (d : StructDef) (i : Nat) (v : Value) (x : HostValue) :
    Prop :=
  ∃ slot, d.slots[i]? = some slot ∧ decode schema v slot.type = .ok x

/-- An argument lands in the field of an entry that claims it and takes it. -/
def Argument.Lands (schema : Schema) (d : StructDef) (arg : Argument) (l : Nat × HostValue) :
    Prop :=
  arg.claimant d.table = .ok l.1 ∧ d.Takes schema l.1 arg.value l.2

/-- A value is stored when the entry takes it, and its field then holds what it decodes to. -/
theorem StructDef.store_eq_ok {schema : Schema} {d : StructDef} {place : Place} {i : Nat}
    {v : Value} {stored stored' : Storage} :
    d.store schema place i v stored = .ok stored' ↔
      ∃ x, d.Takes schema i v x ∧ stored' = stored.set i x := by
  rw [store, ConvertError.locate_eq_ok]
  cases hslot : d.slots[i]? with
  | none => simp [Takes, hslot]
  | some slot =>
    simp only [bind_eq_ok, pure_eq_ok, Takes, hslot, Option.some.injEq, exists_eq_left',
      eq_comm (a := stored')]

/-- Why the field of an entry does not take a value: there is no storage, or its type does not
decode the value. -/
inductive StructDef.Refuses (schema : Schema) (d : StructDef) (i : Nat) (v : Value) :
    ConvertError → Prop
  | noStorage (hslot : d.slots[i]? = none) :
      Refuses schema d i v (.malformed d.typeName (.noStorage i))
  | undecoded {slot : Slot} {cause : ConvertError} (hslot : d.slots[i]? = some slot)
      (hdecode : decode schema v slot.type = .error cause) : Refuses schema d i v cause

/-- A value that is taken is not refused. -/
theorem StructDef.Takes.not_refuses {schema : Schema} {d : StructDef} {i : Nat} {v : Value}
    {x : HostValue} {cause : ConvertError} (h : d.Takes schema i v x) :
    ¬ d.Refuses schema i v cause := by
  obtain ⟨slot, hslot, hx⟩ := h
  intro hrefuses
  cases hrefuses with
  | noStorage hnone =>
    rw [hslot] at hnone
    cases hnone
  | undecoded hslot' hcause =>
    obtain rfl := Option.some.inj (hslot.symm.trans hslot')
    rw [hx] at hcause
    cases hcause

/-- A value that is refused fails at its place. -/
theorem StructDef.store_eq_error {schema : Schema} {d : StructDef} {place : Place} {i : Nat}
    {v : Value} {stored : Storage} {e : ConvertError} :
    d.store schema place i v stored = .error e ↔
      ∃ cause, d.Refuses schema i v cause ∧ e = .within place cause := by
  rw [store, ConvertError.locate_eq_error]
  refine exists_congr fun cause => and_congr_left fun _ => ?_
  cases hslot : d.slots[i]? with
  | none =>
    constructor
    · intro h
      obtain rfl := Except.error.inj h
      exact .noStorage hslot
    · intro h
      cases h with
      | noStorage _ => rfl
      | undecoded hslot' _ => cases hslot.symm.trans hslot'
  | some slot =>
    rw [bind_eq_error]
    constructor
    · rintro (h | ⟨_, -, h⟩)
      · exact .undecoded hslot h
      · cases h
    · intro h
      cases h with
      | noStorage hnone => cases hslot.symm.trans hnone
      | undecoded hslot' h =>
        obtain rfl := Option.some.inj (hslot.symm.trans hslot')
        exact .inl h

/-- An argument is bound when it lands, and its field then holds what it decodes to. -/
theorem bindOne_eq_ok {schema : Schema} {d : StructDef} {arg : Argument} {stored stored' : Storage}
    {i : Nat} :
    bindOne schema d arg stored = .ok (i, stored') ↔
      ∃ x, arg.Lands schema d (i, x) ∧ stored' = stored.set i x := by
  simp only [bindOne, bind_eq_ok, pure_eq_ok, StructDef.store_eq_ok, Prod.mk.injEq, Argument.Lands]
  constructor
  · rintro ⟨i, hi, s, ⟨x, hx, rfl⟩, rfl, rfl⟩
    exact ⟨x, ⟨hi, hx⟩, rfl⟩
  · rintro ⟨x, ⟨hi, hx⟩, rfl⟩
    exact ⟨i, hi, _, ⟨x, hx, rfl⟩, rfl, rfl⟩

/-- What is in storage after values have landed one after the other. -/
def Storage.land (stored : Storage) (landings : List (Nat × HostValue)) : Storage :=
  landings.foldl (fun s l => s.set l.1 l.2) stored

/-- A run of arguments is bound when each of them lands. -/
theorem bindEach_eq_ok {schema : Schema} {d : StructDef} {arguments : List Argument}
    {reached reached' : List Nat} {stored stored' : Storage} :
    bindEach schema d arguments reached stored = (.ok reached', stored') ↔
      ∃ landings, List.Forall₂ (Argument.Lands schema d) arguments landings ∧
        reached' = (landings.map (·.1)).reverse ++ reached ∧ stored' = stored.land landings := by
  induction arguments generalizing reached stored with
  | nil =>
    simp only [bindEach, Prod.mk.injEq, Except.ok.injEq]
    exact ⟨fun ⟨hr, hs⟩ => ⟨[], .nil, hr.symm, hs.symm⟩,
      fun ⟨_, .nil, hr, hs⟩ => ⟨hr.symm, hs.symm⟩⟩
  | cons arg rest ih =>
    rw [bindEach]
    constructor
    · intro h
      cases hone : bindOne schema d arg stored with
      | error e => simp [hone] at h
      | ok p =>
        simp only [hone, ih] at h
        obtain ⟨landings, hlands, rfl, rfl⟩ := h
        obtain ⟨x, hx, hset⟩ := bindOne_eq_ok.mp hone
        exact ⟨(p.1, x) :: landings, .cons hx hlands, by simp, by rw [hset]; rfl⟩
    · rintro ⟨landings, hlands, rfl, rfl⟩
      cases hlands with
      | @cons _ l _ landings hl hlands =>
        rw [bindOne_eq_ok.mpr ⟨l.2, hl, rfl⟩]
        exact ih.mpr ⟨landings, hlands, by simp, rfl⟩

theorem Storage.land_length (stored : Storage) (landings : List (Nat × HostValue)) :
    (stored.land landings).length = stored.length := by
  induction landings generalizing stored with
  | nil => rfl
  | cons l rest ih =>
    rw [land, List.foldl_cons, ← land, ih, List.length_set]

/-- Of the values that landed in a field the last one stays. -/
theorem Storage.land_getElem? (stored : Storage) (landings : List (Nat × HostValue)) (i : Nat) :
    (stored.land landings)[i]? =
      match landings.reverse.find? (·.1 == i) with
      | some l => if i < stored.length then some l.2 else none
      | none => stored[i]? := by
  induction landings generalizing stored with
  | nil => rfl
  | cons l rest ih =>
    rw [land, List.foldl_cons, ← land, ih, List.reverse_cons, List.find?_append]
    cases rest.reverse.find? (·.1 == i) with
    | some l' => simp
    | none =>
      by_cases h : l.1 = i
      · subst h
        simp [List.getElem?_set]
      · simp [h]

/-! ## The argument that counts -/

namespace FieldSpec

/-- The argument of a call that counts for an entry: the last keyword of its name, else the
positional argument at its position. -/
def argument? (spec : FieldSpec) (args : List Value) (kwargs : List (String × Value)) :
    Option Value :=
  match kwargs.reverse.find? fun kw => spec.name == some kw.1 with
  | some kw => some kw.2
  | none => spec.position.bind fun p => args[p]?

/-- An entry is reached when an argument stands at its position or carries its name. -/
def Reached (spec : FieldSpec) (args : List Value) (kwargs : List (String × Value)) : Prop :=
  (∃ p, p < args.length ∧ spec.position = some p) ∨ ∃ kw ∈ kwargs, spec.name = some kw.1

end FieldSpec

variable {spec : FieldSpec} {args : List Value} {kwargs : List (String × Value)}

theorem mem_callArguments {arg : Argument} :
    arg ∈ callArguments args kwargs ↔
      (∃ p v, args[p]? = some v ∧ arg = .positional p v) ∨
        ∃ kw ∈ kwargs, arg = .keyword kw.1 kw.2 := by
  rw [callArguments, List.mem_append, List.mem_mapIdx, List.mem_map]
  refine or_congr ⟨?_, ?_⟩ ⟨?_, ?_⟩
  · rintro ⟨p, hp, rfl⟩
    exact ⟨p, args[p], List.getElem?_eq_getElem hp, rfl⟩
  · rintro ⟨p, v, hv, rfl⟩
    obtain ⟨hp, rfl⟩ := List.getElem?_eq_some_iff.mp hv
    exact ⟨p, hp, rfl⟩
  · rintro ⟨kw, hkw, rfl⟩
    exact ⟨kw, hkw, rfl⟩
  · rintro ⟨kw, hkw, rfl⟩
    exact ⟨kw, hkw, rfl⟩

/-- An entry is reached when some argument of the call is meant for it. -/
theorem reached_iff :
    spec.Reached args kwargs ↔ ∃ arg ∈ callArguments args kwargs, arg.isFor spec = true := by
  simp only [FieldSpec.Reached, mem_callArguments]
  constructor
  · rintro (⟨p, hp, hspec⟩ | ⟨kw, hkw, hspec⟩)
    · exact ⟨_, .inl ⟨p, args[p], List.getElem?_eq_getElem hp, rfl⟩,
        by simp [Argument.isFor, hspec]⟩
    · exact ⟨_, .inr ⟨kw, hkw, rfl⟩, by simp [Argument.isFor, hspec]⟩
  · rintro ⟨_, ⟨p, v, hv, rfl⟩ | ⟨kw, hkw, rfl⟩, hfor⟩
    · obtain ⟨hp, -⟩ := List.getElem?_eq_some_iff.mp hv
      exact .inl ⟨p, hp, by simpa [Argument.isFor] using hfor⟩
    · exact .inr ⟨kw, hkw, by simpa [Argument.isFor] using hfor⟩

/-- Of the positional arguments only the one at its position is meant for an entry. -/
theorem find?_positional :
    ((args.mapIdx Argument.positional).reverse.find? (·.isFor spec)).map Argument.value =
      spec.position.bind fun p => args[p]? := by
  cases hfind : spec.position.bind fun p => args[p]? with
  | none =>
    rw [Option.map_eq_none_iff, List.find?_eq_none]
    intro arg harg hfor
    obtain ⟨p, hp, rfl⟩ := List.mem_mapIdx.mp (List.mem_reverse.mp harg)
    have hspec : spec.position = some p := by simpa [Argument.isFor] using hfor
    simp [hspec, hp] at hfind
  | some v =>
    obtain ⟨p, hspec, hv⟩ := Option.bind_eq_some_iff.mp hfind
    obtain ⟨hp, rfl⟩ := List.getElem?_eq_some_iff.mp hv
    rw [find?_eq_some_of_unique (a := .positional p args[p])]
    · rfl
    · exact List.mem_reverse.mpr (List.mem_mapIdx.mpr ⟨p, hp, rfl⟩)
    · simp [Argument.isFor, hspec]
    · intro arg harg hfor
      obtain ⟨q, hq, rfl⟩ := List.mem_mapIdx.mp (List.mem_reverse.mp harg)
      obtain rfl : p = q := by simpa [Argument.isFor, hspec] using hfor
      rfl

/-- The last argument that is meant for an entry is the one that counts for it. -/
theorem find?_callArguments :
    ((callArguments args kwargs).reverse.find? (·.isFor spec)).map Argument.value =
      spec.argument? args kwargs := by
  rw [callArguments, List.reverse_append, List.find?_append, ← List.map_reverse, List.find?_map,
    FieldSpec.argument?]
  -- whether a keyword argument is meant for the entry depends on its name alone
  show ((kwargs.reverse.find? fun kw => spec.name == some kw.1).map _ |>.or _).map _ = _
  cases kwargs.reverse.find? fun kw => spec.name == some kw.1 with
  | some kw => rfl
  | none => exact find?_positional

/-! ## Whole calls -/

/-- The calls that a struct accepts. -/
structure StructDef.Accepts (schema : Schema) (d : StructDef) (args : List Value)
    (kwargs : List (String × Value)) : Prop where
  /-- No two entries of the table have the same position. -/
  positions : d.table.Pairwise FieldSpec.PositionsDiffer
  /-- No two entries of the table have the same name. -/
  names : d.table.Pairwise FieldSpec.NamesDiffer
  /-- Every positional argument is taken by an entry of its position. -/
  positional : ∀ p v, args[p]? = some v →
    ∃ i spec x, d.table[i]? = some spec ∧ spec.position = some p ∧ d.Takes schema i v x
  /-- Every keyword argument is taken by an entry of its name. -/
  keyword : ∀ kw ∈ kwargs,
    ∃ i spec x, d.table[i]? = some spec ∧ spec.name = some kw.1 ∧ d.Takes schema i kw.2 x
  /-- Every required entry that calls can reach is reached. -/
  required : ∀ spec ∈ d.table, spec.required = true → spec.isBound = true →
    spec.Reached args kwargs

/-- What a call leaves in storage. -/
structure StructDef.Filled (schema : Schema) (d : StructDef) (args : List Value)
    (kwargs : List (String × Value)) (before after : Storage) : Prop where
  /-- There are as many fields as before. -/
  length : after.length = before.length
  /-- A field for which an argument counts holds what that argument decodes to. -/
  reached : ∀ (i : Nat) spec v, d.table[i]? = some spec →
    spec.argument? args kwargs = some v →
      ∃ x, d.Takes schema i v x ∧ after[i]? = some x
  /-- Every other field, and what is no field of the table, is as before. -/
  kept : ∀ i : Nat, (∀ spec, d.table[i]? = some spec → spec.argument? args kwargs = none) →
    after[i]? = before[i]?

variable {schema : Schema} {d : StructDef}

/-- In a sound table the arguments land exactly when the struct takes each of them. -/
theorem lands_iff (hsound : tableFault? d.table = none) :
    (∃ landings, List.Forall₂ (Argument.Lands schema d) (callArguments args kwargs) landings) ↔
      (∀ p v, args[p]? = some v →
        ∃ i spec x, d.table[i]? = some spec ∧ spec.position = some p ∧ d.Takes schema i v x) ∧
      ∀ kw ∈ kwargs,
        ∃ i spec x, d.table[i]? = some spec ∧ spec.name = some kw.1 ∧ d.Takes schema i kw.2 x := by
  rw [forall₂_exists_iff]
  constructor
  · intro h
    refine ⟨fun p v hv => ?_, fun kw hkw => ?_⟩
    · obtain ⟨⟨i, x⟩, hclaim, htakes⟩ := h _ (mem_callArguments.mpr (.inl ⟨p, v, hv, rfl⟩))
      obtain ⟨spec, hspec, hfor⟩ := (Argument.claimant_eq_ok hsound).mp hclaim
      exact ⟨i, spec, x, hspec, by simpa [Argument.isFor] using hfor, htakes⟩
    · obtain ⟨⟨i, x⟩, hclaim, htakes⟩ := h _ (mem_callArguments.mpr (.inr ⟨kw, hkw, rfl⟩))
      obtain ⟨spec, hspec, hfor⟩ := (Argument.claimant_eq_ok hsound).mp hclaim
      exact ⟨i, spec, x, hspec, by simpa [Argument.isFor] using hfor, htakes⟩
  · rintro ⟨hpositional, hkeyword⟩ arg harg
    rcases mem_callArguments.mp harg with ⟨p, v, hv, rfl⟩ | ⟨kw, hkw, rfl⟩
    · obtain ⟨i, spec, x, hspec, hp, htakes⟩ := hpositional p v hv
      have hfor : Argument.isFor spec (.positional p v) = true := by simp [Argument.isFor, hp]
      exact ⟨(i, x), (Argument.claimant_eq_ok hsound).mpr ⟨spec, hspec, hfor⟩, htakes⟩
    · obtain ⟨i, spec, x, hspec, hn, htakes⟩ := hkeyword kw hkw
      have hfor : Argument.isFor spec (.keyword kw.1 kw.2) = true := by simp [Argument.isFor, hn]
      exact ⟨(i, x), (Argument.claimant_eq_ok hsound).mpr ⟨spec, hspec, hfor⟩, htakes⟩

/-- An argument that lands is meant for the entry where it lands, and for no other. -/
theorem isFor_of_lands (hsound : tableFault? d.table = none) {arg : Argument} {l : Nat × HostValue}
    (hlands : arg.Lands schema d l) {i : Nat} (hspec : d.table[i]? = some spec) :
    arg.isFor spec = (l.1 == i) := by
  obtain ⟨spec', hspec', hfor'⟩ := (Argument.claimant_eq_ok hsound).mp hlands.1
  by_cases hi : l.1 = i
  · obtain rfl : spec' = spec := Option.some.inj (hspec'.symm.trans (hi ▸ hspec))
    simp [hfor', hi]
  · have hnot : ¬ arg.isFor spec = true := fun hfor => by
      have hclaim := (Argument.claimant_eq_ok hsound).mpr ⟨spec, hspec, hfor⟩
      exact hi (Except.ok.inj (hlands.1.symm.trans hclaim))
    simp [hnot, hi]

/-- Nothing is missing when every required entry that calls can reach is among the reached. -/
theorem firstMissing?_eq_none {table : List FieldSpec} {reached : List Nat} :
    firstMissing? table reached = none ↔ ∀ i spec, table[i]? = some spec →
      spec.required = true → spec.isBound = true → i ∈ reached := by
  rw [firstMissing?, Option.map_eq_none_iff, List.find?_eq_none]
  constructor
  · intro h i spec hspec hrequired hbound
    simpa [hrequired, hbound] using h (spec, i) (List.mem_zipIdx_iff_getElem?.mpr hspec)
  · rintro h ⟨spec, i⟩ hmem htest
    simp only [Bool.and_eq_true] at htest
    obtain ⟨⟨hbound, hrequired⟩, hnot⟩ := htest
    simp [h i spec (List.mem_zipIdx_iff_getElem?.mp hmem) hrequired hbound] at hnot

variable {landings : List (Nat × HostValue)}

/-- Where arguments land, the entries among those of the landings are the ones that are reached. -/
theorem mem_landings_iff_reached (hsound : tableFault? d.table = none)
    (hlands : List.Forall₂ (Argument.Lands schema d) (callArguments args kwargs) landings) {i : Nat}
    (hspec : d.table[i]? = some spec) :
    i ∈ (landings.map (·.1)).reverse ↔ spec.Reached args kwargs := by
  rw [reached_iff, List.mem_reverse, List.mem_map]
  constructor
  · rintro ⟨l, hl, rfl⟩
    obtain ⟨arg, harg, hland⟩ := forall₂_exists_left hlands l hl
    exact ⟨arg, harg, by simp [isFor_of_lands hsound hland hspec]⟩
  · rintro ⟨arg, harg, hfor⟩
    obtain ⟨l, hl, hland⟩ := forall₂_exists_right hlands arg harg
    exact ⟨l, hl, by simpa [isFor_of_lands hsound hland hspec] using hfor⟩

/-- Where arguments land, nothing is missing exactly when every required entry is reached. -/
theorem nothing_missing_iff (hsound : tableFault? d.table = none)
    (hlands : List.Forall₂ (Argument.Lands schema d) (callArguments args kwargs) landings) :
    firstMissing? d.table (landings.map (·.1)).reverse = none ↔
      ∀ spec ∈ d.table, spec.required = true → spec.isBound = true →
        spec.Reached args kwargs := by
  rw [firstMissing?_eq_none]
  constructor
  · intro h spec hspec hrequired hbound
    obtain ⟨i, hi⟩ := List.mem_iff_getElem?.mp hspec
    exact (mem_landings_iff_reached hsound hlands hi).mp (h i spec hi hrequired hbound)
  · intro h i spec hi hrequired hbound
    exact (mem_landings_iff_reached hsound hlands hi).mpr
      (h spec (List.mem_of_getElem? hi) hrequired hbound)

/-- Arguments that have landed fill the fields: for each the last one counts. -/
theorem filled_of_lands (hsound : tableFault? d.table = none)
    (hlands : List.Forall₂ (Argument.Lands schema d) (callArguments args kwargs) landings)
    {stored : Storage} (hstored : stored.length = d.slots.length) :
    d.Filled schema args kwargs stored (stored.land landings) := by
  -- for each entry, the last argument meant for it and the last value landed in it are partners
  have hlast := fun i spec (hspec : d.table[i]? = some spec) =>
    forall₂_find? (List.forall₂_reverse_iff.mpr hlands) fun arg _ l _ hland =>
      isFor_of_lands hsound hland hspec
  refine ⟨stored.land_length landings, fun i spec v hspec hv => ?_, fun i hnone => ?_⟩
  · rw [← find?_callArguments] at hv
    rcases hlast i spec hspec with ⟨harg, -⟩ | ⟨arg, l, harg, hl, hland⟩
    · simp [harg] at hv
    · obtain rfl : arg.value = v := by simpa [harg] using hv
      obtain rfl : l.1 = i := by simpa using List.find?_some hl
      have hi : l.1 < stored.length := by
        obtain ⟨slot, hslot, -⟩ := hland.2
        exact hstored ▸ (List.getElem?_eq_some_iff.mp hslot).1
      exact ⟨l.2, hland.2, by rw [stored.land_getElem?, hl]; simp [hi]⟩
  · rw [stored.land_getElem?]
    cases hl : landings.reverse.find? (·.1 == i) with
    | none => rfl
    | some l =>
      -- a value that landed would be that of an argument that counts
      obtain rfl : l.1 = i := by simpa using List.find?_some hl
      have hmem : l ∈ landings := List.mem_reverse.mp (List.mem_of_find?_eq_some hl)
      obtain ⟨arg, -, hland⟩ := forall₂_exists_left hlands l hmem
      obtain ⟨spec, hspec, -⟩ := (Argument.claimant_eq_ok hsound).mp hland.1
      rcases hlast l.1 spec hspec with ⟨-, hl'⟩ | ⟨arg, -, harg, -, -⟩
      · rw [hl] at hl'
        cases hl'
      · have := hnone spec hspec
        rw [← find?_callArguments, harg] at this
        cases this

/-- A call is bound when the table is sound, every argument lands and nothing is missing. -/
theorem bindArguments_eq_ok (stored : Storage) {stored' : Storage} :
    bindArguments schema d args kwargs stored = ⟨.ok (), stored'⟩ ↔
      tableFault? d.table = none ∧ ∃ landings,
        List.Forall₂ (Argument.Lands schema d) (callArguments args kwargs) landings ∧
          firstMissing? d.table (landings.map (·.1)).reverse = none ∧
          stored' = stored.land landings := by
  rw [bindArguments]
  cases tableFault? d.table with
  | some fault => simp
  | none =>
    simp only [true_and]
    constructor
    · intro h
      rcases heach : bindEach schema d (callArguments args kwargs) [] stored with ⟨e | reached, s⟩
      · simp [heach] at h
      · simp only [heach] at h
        obtain ⟨landings, hlands, rfl, rfl⟩ := bindEach_eq_ok.mp heach
        rw [List.append_nil] at h
        cases hmissing : firstMissing? d.table (landings.map (·.1)).reverse with
        | some spec => simp [hmissing] at h
        | none =>
          simp only [hmissing, Bound.mk.injEq, true_and] at h
          exact ⟨landings, hlands, hmissing, h.symm⟩
    · rintro ⟨landings, hlands, hmissing, rfl⟩
      rw [bindEach_eq_ok.mpr ⟨landings, hlands, rfl, rfl⟩]
      simp [hmissing]

/-- The same of the outcome alone. -/
theorem bindArguments_outcome_eq_ok {stored : Storage} :
    (bindArguments schema d args kwargs stored).outcome = .ok () ↔
      tableFault? d.table = none ∧ ∃ landings,
        List.Forall₂ (Argument.Lands schema d) (callArguments args kwargs) landings ∧
          firstMissing? d.table (landings.map (·.1)).reverse = none ∧
          (bindArguments schema d args kwargs stored).stored = stored.land landings := by
  rw [← bindArguments_eq_ok]
  generalize bindArguments schema d args kwargs stored = bound
  cases bound
  simp

/-- **What binding means.** A call is bound exactly when the struct accepts it, and then each field
of the table holds what the last keyword of its name decodes to, else what the positional argument
at its position decodes to, else what it held before. -/
theorem bindArguments_accepts (schema : Schema) (d : StructDef) (args : List Value)
    (kwargs : List (String × Value)) (stored : Storage) (hstored : stored.length = d.slots.length) :
    ((bindArguments schema d args kwargs stored).outcome = .ok () ↔
        d.Accepts schema args kwargs) ∧
      ((bindArguments schema d args kwargs stored).outcome = .ok () →
        d.Filled schema args kwargs stored (bindArguments schema d args kwargs stored).stored) := by
  refine ⟨bindArguments_outcome_eq_ok.trans ⟨?_, ?_⟩, fun h => ?_⟩
  · rintro ⟨hsound, landings, hlands, hmissing, -⟩
    obtain ⟨hpositions, hnames⟩ := tableFault?_eq_none.mp hsound
    obtain ⟨hpositional, hkeyword⟩ := (lands_iff hsound).mp ⟨landings, hlands⟩
    exact ⟨hpositions, hnames, hpositional, hkeyword,
      (nothing_missing_iff hsound hlands).mp hmissing⟩
  · intro h
    have hsound := tableFault?_eq_none.mpr ⟨h.positions, h.names⟩
    obtain ⟨landings, hlands⟩ := (lands_iff hsound).mpr ⟨h.positional, h.keyword⟩
    have hmissing := (nothing_missing_iff hsound hlands).mpr h.required
    have hbound := (bindArguments_eq_ok stored).mpr
      ⟨hsound, landings, hlands, hmissing, rfl⟩
    exact ⟨hsound, landings, hlands, hmissing, by rw [hbound]⟩
  · obtain ⟨hsound, landings, hlands, -, hafter⟩ := bindArguments_outcome_eq_ok.mp h
    rw [hafter]
    exact filled_of_lands hsound hlands hstored

/-- A keyword that is given twice counts once, and wins over the positional argument. -/
theorem bindArguments_accepts_keyword_twice :
    let spec : FieldSpec :=
      ((FieldSpec.ofIdentifier "on").withName "on").withPosition 0 |>.withRequired true
    let d : StructDef := ⟨⟨"Switch", [spec], ["count"]⟩, [⟨.bool, .bool false⟩], []⟩
    let kwargs := [("on", Value.bool false), ("on", Value.bool true)]
    [HostValue.bool false].length = d.slots.length ∧
      d.Accepts .empty [.bool false] kwargs ∧
      d.Filled .empty [.bool false] kwargs [.bool false] [.bool true] := by
  intro spec d kwargs
  have h := bindArguments_accepts .empty d [.bool false] kwargs [.bool false] rfl
  have hbound : bindArguments .empty d [.bool false] kwargs [.bool false] =
      ⟨.ok (), [.bool true]⟩ := rfl
  rw [hbound] at h
  exact ⟨rfl, h.1.mp rfl, h.2 rfl⟩

end ScriptBridge
