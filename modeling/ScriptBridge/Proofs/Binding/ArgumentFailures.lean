import ScriptBridge.Proofs.Binding.Arguments

/-!
# How a call with positions fails

A table at fault binds nothing. With a sound table a call fails at its first argument that no entry
claims, or that the entry that claims it refuses; only when all arguments have landed does it count
what is missing. Whatever landed before the failure stays in storage, so that the state of a failed
call depends on where it failed.

- `TableClash`, `tableClash_of_tableFault?`: the fault of a table names two entries of it.
- `Argument.Fails`, `bindOne_eq_error`: an argument that is not bound.
- `StructDef.Applied`, `StructDef.Applied.kept`: arguments that have landed, and the fields that
  they leave alone.
- `bindEach_eq_error`: a run of arguments fails at the first one that does.
- `firstMissing?_eq_some`: what is missing is the first entry that is.
- `StructDef.CallFailure`: how a call fails, and what it leaves in storage.
- `bindArgumentsFlagged`: the call with a flag for each entry, set by index. It is stuck where an
  index is out of range, which `bindArgumentsFlagged_eq` excludes.
- `bindArguments_fails`: all of this of whole calls.
-/

namespace ScriptBridge

variable {schema : Schema} {d : StructDef} {args : List Value} {kwargs : List (String × Value)}
  {spec : FieldSpec} {table : List FieldSpec} {arg : Argument} {arguments : List Argument}
  {reached : List Nat} {stored stored' : Storage} {e : ConvertError}

/-! ## Tables at fault -/

/-- Two entries of a table claim the same, the earlier one named first. -/
inductive TableClash (table : List FieldSpec) : TableFault → Prop
  | position {i j p : Nat} {a b : FieldSpec} (hij : i < j) (ha : table[i]? = some a)
      (hb : table[j]? = some b) (hpa : a.position = some p) (hpb : b.position = some p) :
      TableClash table (.sharedPosition a.ident b.ident p)
  | name {i j : Nat} {n : String} {a b : FieldSpec} (hij : i < j) (ha : table[i]? = some a)
      (hb : table[j]? = some b) (hna : a.name = some n) (hnb : b.name = some n) :
      TableClash table (.sharedName a.ident b.ident n)

/-- The entry that an entry clashes with stands before it. -/
theorem FieldSpec.tableClash_of_clash? {earlier rest : List FieldSpec} {fault : TableFault}
    (h : spec.clash? earlier = some fault) : TableClash (earlier ++ spec :: rest) fault := by
  have hspec : (earlier ++ spec :: rest)[earlier.length]? = some spec := by simp
  have hearlier : ∀ o ∈ earlier, ∃ i, i < earlier.length ∧
      (earlier ++ spec :: rest)[i]? = some o := by
    intro o ho
    obtain ⟨i, hi⟩ := List.mem_iff_getElem?.mp ho
    obtain ⟨hlt, -⟩ := List.getElem?_eq_some_iff.mp hi
    exact ⟨i, hlt, by rw [List.getElem?_append_left hlt, hi]⟩
  rw [clash?, Option.orElse_eq_orElse, Option.orElse_eq_or, Option.or_eq_some_iff] at h
  rcases h with h | ⟨-, h⟩
  · obtain ⟨p, hp, h⟩ := Option.bind_eq_some_iff.mp h
    obtain ⟨o, ho, h⟩ := Option.bind_eq_some_iff.mp h
    obtain rfl := Option.some.inj h
    obtain ⟨i, hi, hget⟩ := hearlier o (List.mem_of_find?_eq_some ho)
    exact .position hi hget hspec (by simpa using List.find?_some ho) hp
  · obtain ⟨n, hn, h⟩ := Option.bind_eq_some_iff.mp h
    obtain ⟨o, ho, h⟩ := Option.bind_eq_some_iff.mp h
    obtain rfl := Option.some.inj h
    obtain ⟨i, hi, hget⟩ := hearlier o (List.mem_of_find?_eq_some ho)
    exact .name hi hget hspec (by simpa using List.find?_some ho) hn

theorem tableClash_of_tableFaultAfter? {earlier : List FieldSpec} {fault : TableFault}
    (h : tableFaultAfter? earlier table = some fault) : TableClash (earlier ++ table) fault := by
  induction table generalizing earlier with
  | nil => cases h
  | cons spec rest ih =>
    rw [tableFaultAfter?, Option.orElse_eq_orElse, Option.orElse_eq_or,
      Option.or_eq_some_iff] at h
    rcases h with h | ⟨-, h⟩
    · exact FieldSpec.tableClash_of_clash? h
    · simpa using ih h

/-- The fault of a table names two of its entries. -/
theorem tableClash_of_tableFault? {fault : TableFault} (h : tableFault? table = some fault) :
    TableClash table fault :=
  tableClash_of_tableFaultAfter? h

/-! ## Arguments that are not bound -/

/-- Why an argument is not bound, and the error that says so. -/
inductive Argument.Fails (schema : Schema) (d : StructDef) : Argument → ConvertError → Prop
  | unexpected {index : Nat} {v : Value} (h : ∀ spec ∈ d.table, spec.position ≠ some index) :
      Fails schema d (.positional index v) (.unexpectedPositional index)
  | unknown {name : String} {v : Value} (h : ∀ spec ∈ d.table, spec.name ≠ some name) :
      Fails schema d (.keyword name v) (.unknownKeyword name)
  | refused {arg : Argument} {i : Nat} {spec : FieldSpec} {cause : ConvertError}
      (hspec : d.table[i]? = some spec) (hfor : arg.isFor spec = true)
      (hrefuses : d.Refuses schema i arg.value cause) :
      Fails schema d arg (.within arg.place cause)

/-- An argument that no entry claims is not bound. -/
theorem Argument.fails_of_claimant (h : arg.claimant d.table = .error e) :
    arg.Fails schema d e := by
  cases arg with
  | positional index v =>
    rw [claimant] at h
    split at h
    · cases h
    · next hnone =>
      obtain rfl := Except.error.inj h
      exact .unexpected fun spec hspec => by
        simpa using List.findIdx?_eq_none_iff.mp hnone spec hspec
  | keyword name v =>
    rw [claimant] at h
    split at h
    · cases h
    · next hnone =>
      obtain rfl := Except.error.inj h
      exact .unknown fun spec hspec => by
        simpa using List.findIdx?_eq_none_iff.mp hnone spec hspec

/-- In a sound table an argument is not bound when no entry claims it, or the one that does refuses
it. -/
theorem bindOne_eq_error (hsound : tableFault? d.table = none) :
    bindOne schema d arg stored = .error e ↔ arg.Fails schema d e := by
  have hclaimed : ∀ {i}, arg.claimant d.table = .ok i →
      ∃ spec ∈ d.table, d.table[i]? = some spec ∧ arg.isFor spec = true := fun h => by
    obtain ⟨spec, hspec, hfor⟩ := (Argument.claimant_eq_ok hsound).mp h
    exact ⟨spec, List.mem_of_getElem? hspec, hspec, hfor⟩
  rw [bindOne, bind_eq_error]
  constructor
  · rintro (h | ⟨i, hi, h⟩)
    · exact Argument.fails_of_claimant h
    rcases bind_eq_error.mp h with h | ⟨_, -, h⟩
    · obtain ⟨spec, -, hspec, hfor⟩ := hclaimed hi
      obtain ⟨cause, hrefuses, rfl⟩ := StructDef.store_eq_error.mp h
      exact .refused hspec hfor hrefuses
    · cases h
  · rintro (hno | hno | ⟨hspec, hfor, hrefuses⟩)
    · left
      rw [Argument.claimant, List.findIdx?_eq_none_iff.mpr fun spec hspec => by
        simpa using hno spec hspec]
    · left
      rw [Argument.claimant, List.findIdx?_eq_none_iff.mpr fun spec hspec => by
        simpa using hno spec hspec]
    · right
      refine ⟨_, (Argument.claimant_eq_ok hsound).mpr ⟨_, hspec, hfor⟩, ?_⟩
      exact bind_eq_error.mpr (.inl (StructDef.store_eq_error.mpr ⟨_, hrefuses, rfl⟩))

/-! ## Runs of arguments -/

/-- Storage after arguments have landed in it, one after the other. -/
def StructDef.Applied (schema : Schema) (d : StructDef) (arguments : List Argument)
    (before after : Storage) : Prop :=
  ∃ landings, List.Forall₂ (Argument.Lands schema d) arguments landings ∧
    after = before.land landings

/-- Arguments leave alone the fields of entries that they are not for, and all else. -/
theorem StructDef.Applied.kept (hsound : tableFault? d.table = none)
    (h : d.Applied schema arguments stored stored') {i : Nat}
    (hnone : ∀ spec, d.table[i]? = some spec → ∀ arg ∈ arguments, arg.isFor spec = false) :
    stored'[i]? = stored[i]? := by
  obtain ⟨landings, hlands, rfl⟩ := h
  rw [stored.land_getElem?]
  cases hl : landings.reverse.find? (·.1 == i) with
  | none => rfl
  | some l =>
    obtain rfl : l.1 = i := by simpa using List.find?_some hl
    have hmem : l ∈ landings := List.mem_reverse.mp (List.mem_of_find?_eq_some hl)
    obtain ⟨arg, harg, hland⟩ := forall₂_exists_left hlands l hmem
    obtain ⟨spec, hspec, hfor⟩ := (Argument.claimant_eq_ok hsound).mp hland.1
    rw [hnone spec hspec arg harg] at hfor
    cases hfor

/-- A run of arguments fails at the first one that does. What those before it stored stays. -/
theorem bindEach_eq_error (hsound : tableFault? d.table = none) :
    bindEach schema d arguments reached stored = (.error e, stored') ↔
      ∃ done arg rest, arguments = done ++ arg :: rest ∧ d.Applied schema done stored stored' ∧
        arg.Fails schema d e := by
  induction arguments generalizing reached stored with
  | nil => simp [bindEach]
  | cons first rest ih =>
    rw [bindEach]
    constructor
    · intro h
      cases hone : bindOne schema d first stored with
      | error e' =>
        simp only [hone, Prod.mk.injEq, Except.error.injEq] at h
        obtain ⟨rfl, rfl⟩ := h
        exact ⟨[], first, rest, rfl, ⟨[], .nil, rfl⟩, (bindOne_eq_error hsound).mp hone⟩
      | ok p =>
        simp only [hone, ih] at h
        obtain ⟨done, arg, after, rfl, ⟨landings, hlands, rfl⟩, hfails⟩ := h
        obtain ⟨x, hx, hset⟩ := bindOne_eq_ok.mp hone
        exact ⟨first :: done, arg, after, rfl,
          ⟨(p.1, x) :: landings, .cons hx hlands, by rw [hset]; rfl⟩, hfails⟩
    · rintro ⟨done, arg, after, hsplit, ⟨landings, hlands, rfl⟩, hfails⟩
      cases hlands with
      | nil =>
        obtain ⟨rfl, rfl⟩ := List.cons.inj hsplit
        rw [(bindOne_eq_error hsound).mpr hfails]
        rfl
      | @cons _ l done landings hl hlands =>
        obtain ⟨rfl, rfl⟩ := List.cons.inj hsplit
        rw [bindOne_eq_ok.mpr ⟨l.2, hl, rfl⟩]
        exact ih.mpr ⟨done, arg, after, rfl, ⟨landings, hlands, rfl⟩, hfails⟩

/-- What is missing is the first required entry that calls can reach and that was not reached. -/
theorem firstMissing?_eq_some :
    firstMissing? table reached = some spec ↔
      ∃ i : Nat, table[i]? = some spec ∧ spec.required = true ∧ spec.isBound = true ∧
        i ∉ reached ∧ ∀ (j : Nat) other, j < i → table[j]? = some other →
          other.required = true → other.isBound = true → j ∈ reached := by
  rw [firstMissing?, Option.map_eq_some_iff]
  constructor
  · rintro ⟨⟨spec, i⟩, hfind, rfl⟩
    obtain ⟨htest, k, hk, hget, hbefore⟩ := List.find?_eq_some_iff_getElem.mp hfind
    simp only [List.getElem_zipIdx, Nat.zero_add, Prod.mk.injEq] at hget
    obtain ⟨hspec, rfl⟩ := hget
    simp only [Bool.and_eq_true, Bool.not_eq_true', List.contains_eq_mem,
      decide_eq_false_iff_not] at htest
    refine ⟨k, List.getElem?_eq_some_iff.mpr ⟨_, hspec⟩, htest.1.2, htest.1.1, htest.2, ?_⟩
    intro j other hj hother hrequired hbound
    obtain ⟨hlt, rfl⟩ := List.getElem?_eq_some_iff.mp hother
    have hpassed := hbefore j hj
    simpa [hrequired, hbound] using hpassed
  · rintro ⟨i, hspec, hrequired, hbound, hnot, hbefore⟩
    obtain ⟨hlt, rfl⟩ := List.getElem?_eq_some_iff.mp hspec
    refine ⟨(table[i], i), List.find?_eq_some_iff_getElem.mpr ⟨?_, i, by simpa using hlt, ?_, ?_⟩,
      rfl⟩
    · simp [hrequired, hbound, hnot]
    · simp
    · intro j hj
      have hother := List.getElem?_eq_getElem (Nat.lt_trans hj hlt)
      have hpassed := hbefore j _ hj hother
      by_cases hneeded : table[j].required = true ∧ table[j].isBound = true
      · simp [hpassed hneeded.1 hneeded.2]
      · by_cases hrequired : table[j].required = true
        · have hunbound : ¬ table[j].isBound = true := fun hbound => hneeded ⟨hrequired, hbound⟩
          simp [hunbound]
        · simp [hrequired]

/-! ## Flags

The entries that were reached can be kept as one flag for each entry of the table. A flag is set by
the index of its entry, and there is no flag for an index that the table does not have. -/

/-- Store arguments in order and set the flag of each entry that is reached. The run is stuck where
there is no flag to set. -/
def bindEachFlagged (schema : Schema) (d : StructDef) :
    List Argument → List Bool → Storage → Option (Except ConvertError (List Bool) × Storage)
  | [], flags, stored => some (.ok flags, stored)
  | arg :: rest, flags, stored =>
    match bindOne schema d arg stored with
    | .ok (index, stored) =>
      if index < flags.length then bindEachFlagged schema d rest (flags.set index true) stored
      else none
    | .error e => some (.error e, stored)

/-- The first required entry whose flag is not set, of those that calls reach at all. -/
def firstUnset? (table : List FieldSpec) (flags : List Bool) : Option FieldSpec :=
  ((table.zip flags).find? fun (spec, set) => spec.isBound && spec.required && !set).map (·.1)

/-- Bind the arguments of a call and keep flags, all of them unset at first. -/
def bindArgumentsFlagged (schema : Schema) (d : StructDef) (args : List Value)
    (kwargs : List (String × Value)) (stored : Storage) : Option Bound :=
  match tableFault? d.table with
  | some fault => some ⟨.error (.malformed d.typeName fault), stored⟩
  | none => do
    match ← bindEachFlagged schema d (callArguments args kwargs)
        (.replicate d.table.length false) stored with
    | (.error e, stored) => return ⟨.error e, stored⟩
    | (.ok flags, stored) =>
      match firstUnset? d.table flags with
      | some spec => return ⟨.error (.missingRequired spec.label), stored⟩
      | none => return ⟨.ok (), stored⟩

/-- The flags of a table of which some entries have been reached. -/
def flagsOf (table : List FieldSpec) (reached : List Nat) : List Bool :=
  (List.range table.length).map fun i => reached.contains i

theorem flagsOf_nil : flagsOf table [] = .replicate table.length false := by
  simp [flagsOf, List.map_const']

@[simp] theorem flagsOf_length : (flagsOf table reached).length = table.length := by
  simp [flagsOf]

theorem set_flagsOf {i : Nat} :
    (flagsOf table reached).set i true = flagsOf table (i :: reached) := by
  refine List.ext_getElem (by simp) fun j hj _ => ?_
  by_cases hij : i = j
  · simp [flagsOf, hij]
  · simp [flagsOf, List.getElem_set_ne hij, Ne.symm hij]

/-- Unset flags tell which entries are missing. -/
theorem firstUnset?_flagsOf : firstUnset? table (flagsOf table reached) =
    firstMissing? table reached := by
  have hzip : table.zip (flagsOf table reached) =
      table.zipIdx.map fun p => (p.1, reached.contains p.2) :=
    List.ext_getElem (by simp) fun i hi _ => by simp [flagsOf]
  rw [firstUnset?, firstMissing?, hzip, List.find?_map, Option.map_map]
  rfl

/-- The entry that claims an argument is one of the table. -/
theorem Argument.claimant_lt {i : Nat} (h : arg.claimant table = .ok i) : i < table.length := by
  cases arg with
  | positional index v | keyword name v =>
    rw [claimant] at h
    split at h
    · next hfind =>
      obtain rfl := Except.ok.inj h
      exact (List.findIdx?_eq_some_iff_getElem.mp hfind).1
    · cases h

/-- A run with flags is never stuck, and sets the flags of the entries that are reached. -/
theorem bindEachFlagged_eq :
    bindEachFlagged schema d arguments (flagsOf d.table reached) stored =
      some ((bindEach schema d arguments reached stored).map (·.map (flagsOf d.table)) id) := by
  induction arguments generalizing reached stored with
  | nil => rfl
  | cons arg rest ih =>
    rw [bindEachFlagged, bindEach]
    cases hone : bindOne schema d arg stored with
    | error e => rfl
    | ok p =>
      obtain ⟨x, hlands, -⟩ := bindOne_eq_ok.mp hone
      have hindex : p.1 < (flagsOf d.table reached).length :=
        flagsOf_length ▸ Argument.claimant_lt hlands.1
      simp only [hindex, ↓reduceIte, set_flagsOf]
      exact ih

/-- A call with flags is never stuck, and ends as the call. -/
theorem bindArgumentsFlagged_eq :
    bindArgumentsFlagged schema d args kwargs stored =
      some (bindArguments schema d args kwargs stored) := by
  rw [bindArgumentsFlagged, bindArguments, ← flagsOf_nil, bindEachFlagged_eq]
  cases tableFault? d.table with
  | some fault => rfl
  | none =>
    rcases bindEach schema d (callArguments args kwargs) [] stored with ⟨e | reached, stored'⟩
    · rfl
    · simp only [Prod.map, Except.map, id, Option.bind_eq_bind, Option.bind_some,
        firstUnset?_flagsOf]
      cases firstMissing? d.table reached <;> rfl

/-! ## Whole calls -/

/-- How a call fails with a sound table: the error, and what is in storage afterwards. -/
inductive StructDef.CallFailure (schema : Schema) (d : StructDef) (args : List Value)
    (kwargs : List (String × Value)) (stored : Storage) : ConvertError → Storage → Prop
  /-- The arguments before it have landed, and this one fails. -/
  | stops {done rest : List Argument} {arg : Argument} {e : ConvertError} {after : Storage}
      (hcall : callArguments args kwargs = done ++ arg :: rest)
      (hdone : d.Applied schema done stored after) (hfails : arg.Fails schema d e) :
      CallFailure schema d args kwargs stored e after
  /-- All arguments have landed, and this is the first entry that needed one and has none. -/
  | misses {i : Nat} {spec : FieldSpec} {after : Storage}
      (hdone : d.Applied schema (callArguments args kwargs) stored after)
      (hspec : d.table[i]? = some spec) (hrequired : spec.required = true)
      (hbound : spec.isBound = true) (hnot : ¬ spec.Reached args kwargs)
      (hfirst : ∀ (j : Nat) other, j < i → d.table[j]? = some other → other.required = true →
        other.isBound = true → other.Reached args kwargs) :
      CallFailure schema d args kwargs stored (.missingRequired spec.label) after

/-- With a sound table, a call fails in these ways and in no other. -/
theorem bindArguments_eq_error (hsound : tableFault? d.table = none) :
    bindArguments schema d args kwargs stored = ⟨.error e, stored'⟩ ↔
      d.CallFailure schema args kwargs stored e stored' := by
  have hmissing : ∀ {landings spec},
      List.Forall₂ (Argument.Lands schema d) (callArguments args kwargs) landings →
      firstMissing? d.table (landings.map (·.1)).reverse = some spec →
      d.CallFailure schema args kwargs stored (.missingRequired spec.label)
        (stored.land landings) := by
    intro landings spec hlands h
    obtain ⟨i, hspec, hrequired, hbound, hnot, hfirst⟩ := firstMissing?_eq_some.mp h
    refine .misses ⟨landings, hlands, rfl⟩ hspec hrequired hbound ?_ ?_
    · rwa [← mem_landings_iff_reached hsound hlands hspec]
    · intro j other hj hother hrequired hbound
      exact (mem_landings_iff_reached hsound hlands hother).mp
        (hfirst j other hj hother hrequired hbound)
  rw [bindArguments, hsound]
  constructor
  · intro h
    rcases heach : bindEach schema d (callArguments args kwargs) [] stored with ⟨e' | reached, s⟩
    · simp only [heach, Bound.mk.injEq, Except.error.injEq] at h
      obtain ⟨rfl, rfl⟩ := h
      obtain ⟨done, arg, rest, hcall, hdone, hfails⟩ := (bindEach_eq_error hsound).mp heach
      exact .stops hcall hdone hfails
    · simp only [heach] at h
      obtain ⟨landings, hlands, rfl, rfl⟩ := bindEach_eq_ok.mp heach
      rw [List.append_nil] at h
      cases hfirst : firstMissing? d.table (landings.map (·.1)).reverse with
      | none => simp [hfirst] at h
      | some spec =>
        simp only [hfirst, Bound.mk.injEq, Except.error.injEq] at h
        obtain ⟨rfl, rfl⟩ := h
        exact hmissing hlands hfirst
  · rintro (⟨hcall, hdone, hfails⟩ |
      ⟨⟨landings, hlands, rfl⟩, hspec, hrequired, hbound, hnot, hfirst⟩)
    · rw [(bindEach_eq_error hsound).mpr ⟨_, _, _, hcall, hdone, hfails⟩]
    · rw [bindEach_eq_ok.mpr ⟨landings, hlands, rfl, rfl⟩, List.append_nil]
      have hsome := firstMissing?_eq_some.mpr ⟨_, hspec, hrequired, hbound,
        (mem_landings_iff_reached hsound hlands hspec).not.mpr hnot,
        fun j other hj hother hrequired hbound =>
          (mem_landings_iff_reached hsound hlands hother).mpr
            (hfirst j other hj hother hrequired hbound)⟩
      simp only [hsome]

/-- **How calls fail.** If two entries of the table share a position or a name, the table is at
fault, the error names two such entries, and storage is as it was. Otherwise the call fails exactly
at the first of its arguments, positional ones first, that no entry claims or that is refused, or,
when all have landed, for the first required entry that none of them reached. What is in storage is
what the arguments before the failure have left there, and they have left alone all fields that they
are not for. No entry is looked for, and no flag set, outside the table. -/
theorem bindArguments_fails (schema : Schema) (d : StructDef) (args : List Value)
    (kwargs : List (String × Value)) (stored : Storage) :
    (¬ (d.table.Pairwise FieldSpec.PositionsDiffer ∧ d.table.Pairwise FieldSpec.NamesDiffer) →
        ∃ fault, TableClash d.table fault ∧
          bindArguments schema d args kwargs stored =
            ⟨.error (.malformed d.typeName fault), stored⟩) ∧
      (d.table.Pairwise FieldSpec.PositionsDiffer ∧ d.table.Pairwise FieldSpec.NamesDiffer →
        (∀ e after, bindArguments schema d args kwargs stored = ⟨.error e, after⟩ ↔
          d.CallFailure schema args kwargs stored e after) ∧
        ∀ (arguments : List Argument) (after : Storage),
          d.Applied schema arguments stored after → after.length = stored.length ∧
            ∀ i : Nat, (∀ spec, d.table[i]? = some spec → ∀ arg ∈ arguments,
              arg.isFor spec = false) → after[i]? = stored[i]?) ∧
      bindArgumentsFlagged schema d args kwargs stored =
        some (bindArguments schema d args kwargs stored) := by
  rw [← tableFault?_eq_none]
  refine ⟨fun hfault => ?_, fun hsound => ⟨fun e after => bindArguments_eq_error hsound, ?_⟩,
    bindArgumentsFlagged_eq⟩
  · obtain ⟨fault, hfault⟩ := Option.ne_none_iff_exists'.mp hfault
    exact ⟨fault, tableClash_of_tableFault? hfault, by rw [bindArguments, hfault]⟩
  · intro arguments after happlied
    refine ⟨?_, fun i hnone => happlied.kept hsound hnone⟩
    obtain ⟨landings, -, rfl⟩ := happlied
    exact stored.land_length landings

/-- A source that is given by position, and once more by a keyword of the wrong kind, stays as the
position has it, and the keyword after that is never looked at. With the position alone the target
is missing. Where source and target have one name, nothing is stored at all. -/
theorem bindArguments_fails_copy :
    let source := (((FieldSpec.ofIdentifier "src").withName "src").withPosition 0).withRequired true
    let target :=
      (((FieldSpec.ofIdentifier "dest").withName "dest").withPosition 1).withRequired true
    let copy (table : List FieldSpec) : StructDef :=
      ⟨⟨"Copy", table, []⟩, [⟨.string, .string ""⟩, ⟨.string, .string ""⟩], []⟩
    let d := copy [source, target]
    let clashing := copy [source, target.withName "src"]
    let e := ConvertError.within (.keyword "src") (.mismatch "script int" "native String")
    let after := [HostValue.string "a", .string ""]
    (d.table.Pairwise FieldSpec.PositionsDiffer ∧ d.table.Pairwise FieldSpec.NamesDiffer) ∧
      d.CallFailure .empty [.text "a"] [("src", .int 5), ("none", .null)] d.initialStored e after ∧
      d.CallFailure .empty [.text "a"] [] d.initialStored (.missingRequired "dest") after ∧
      bindArgumentsFlagged .empty d [.text "a"] [] d.initialStored =
        some ⟨.error (.missingRequired "dest"), after⟩ ∧
      ¬ (clashing.table.Pairwise FieldSpec.PositionsDiffer ∧
          clashing.table.Pairwise FieldSpec.NamesDiffer) ∧
      ∃ fault, TableClash clashing.table fault ∧
        bindArguments .empty clashing [.text "a"] [] d.initialStored =
          ⟨.error (.malformed "Copy" fault), d.initialStored⟩ := by
  intro source target copy d clashing e after
  have hsound := tableFault?_eq_none.mp (show tableFault? d.table = none from rfl)
  have hclash : ¬ (clashing.table.Pairwise FieldSpec.PositionsDiffer ∧
      clashing.table.Pairwise FieldSpec.NamesDiffer) :=
    tableFault?_eq_none.not.mp (show ¬ tableFault? clashing.table = none from nofun)
  have hkeyword := ((bindArguments_fails .empty d [.text "a"] [("src", .int 5), ("none", .null)]
    d.initialStored).2.1 hsound).1 e after
  obtain ⟨-, hfails, hflags⟩ := bindArguments_fails .empty d [.text "a"] [] d.initialStored
  exact ⟨hsound, hkeyword.mp rfl, ((hfails hsound).1 _ after).mp rfl, hflags, hclash,
    (bindArguments_fails .empty clashing [.text "a"] [] d.initialStored).1 hclash⟩

end ScriptBridge
