import ScriptBridge.Proofs.Decoding.Visits

/-!
# How decoding fails, one level at a time

Every type fails by the first of its visits that fails, or refuses the value as a whole. Types
differ in the visits and in what they refuse, so there is one lemma for each of them.

- `int_failsBy`, `char_failsBy`, `sequence_failsBy`, `mapping_failsBy`, `struct_failsBy`,
  `dynamic_failsBy`, `json_failsBy`: the types that ask for more than a value of one kind.
- `decode_eq_error`: decoding fails in this way and in no other.
- `decode_array_of_vector`, `decode_array_of_vector_error`: arrays fail as vectors do, but for
  refusals of the value as a whole.
-/

namespace ScriptBridge

variable {schema : Schema} {v : Value} {t : HostType} {e : ConvertError}

/-! ## Failures of a type -/

/-- A value of a kind that the type does not take. -/
theorem failsBy_of_kind (hdecode : decode schema v t = .error (.wrongType v t))
    (hvisits : t.visits schema v = []) (hkind : v.kind ∉ t.kinds) :
    decode schema v t = .error e ↔ FailsBy schema (Refused v t) (t.visits schema v) e := by
  rw [hdecode, hvisits, failsBy_nil, refused_of_not_mem_kinds hkind, Except.error.injEq, eq_comm]

/-- A value without parts that the type takes. -/
theorem failsBy_of_ok {x : HostValue} (hdecode : decode schema v t = .ok x)
    (hvisits : t.visits schema v = []) (hrefused : ¬ Refused v t e) :
    decode schema v t = .error e ↔ FailsBy schema (Refused v t) (t.visits schema v) e := by
  rw [hdecode, hvisits, failsBy_nil]
  exact iff_of_false ok_ne_error hrefused

/-- A type that takes every value with a part of its kind. -/
theorem failsBy_of_part {α : Type} {part : Option α} {f : α → HostValue}
    (hdecode : decode schema v t = do return f (← expectPart v t part))
    (hvisits : t.visits schema v = []) (hpart : part = none ↔ v.kind ∉ t.kinds)
    (hrefused : v.kind ∈ t.kinds → ¬ Refused v t e) :
    decode schema v t = .error e ↔ FailsBy schema (Refused v t) (t.visits schema v) e := by
  cases part with
  | none => exact failsBy_of_kind hdecode hvisits (hpart.mp rfl)
  | some a =>
    have hkind : v.kind ∈ t.kinds := by
      by_contra h
      cases hpart.mpr h
    exact failsBy_of_ok hdecode hvisits (hrefused hkind)

theorem decodeFixed_eq_error {type : IntType} {n : Int} :
    decodeFixed type n = .error e ↔
      ¬ type.InRange n ∧ e = .outOfRange (toString n) type.name := by
  rw [decodeFixed, Fixed.ofInt?]
  by_cases hn : type.InRange n
  · simp [hn]
  · simp [hn, eq_comm]

theorem int_failsBy {type : IntType} : decode schema v (.int type) = .error e ↔
    FailsBy schema (Refused v (.int type)) (HostType.visits schema v (.int type)) e := by
  cases v with
  | int n =>
    show decodeFixed type n = .error e ↔ FailsBy schema _ [] e
    rw [failsBy_nil, decodeFixed_eq_error]
    constructor
    · rintro ⟨hn, rfl⟩
      exact .range hn
    · intro h
      cases h with
      | kind h => exact absurd (List.mem_singleton_self _) h
      | range h => exact ⟨h, rfl⟩
  | _ => exact failsBy_of_kind rfl rfl (by simp [Value.kind, HostType.kinds])

theorem decodeChar_eq_error {s : String} :
    decodeChar s = .error e ↔ s.length ≠ 1 ∧
      e = .mismatch ("script string of length " ++ toString s.length) "native char" := by
  rw [decodeChar, ← String.length_toList]
  cases s.toList with
  | nil => simp [eq_comm]
  | cons c cs => cases cs <;> simp [eq_comm]

theorem char_failsBy : decode schema v .char = .error e ↔
    FailsBy schema (Refused v .char) (HostType.visits schema v .char) e := by
  cases v with
  | text s =>
    show decodeChar s = .error e ↔ FailsBy schema _ [] e
    rw [failsBy_nil, decodeChar_eq_error]
    constructor
    · rintro ⟨hs, rfl⟩
      exact .characters hs
    · intro h
      cases h with
      | kind h => exact absurd (List.mem_singleton_self _) h
      | characters h => exact ⟨h, rfl⟩
  | _ => exact failsBy_of_kind rfl rfl (by simp [Value.kind, HostType.kinds])

/-- Once the items are decoded, only their number can be wrong. -/
theorem finishSequence_eq_error {kind : SequenceKind} {item : HostType} {xs : List HostValue}
    (hkind : v.kind ∈ (HostType.sequence kind item).kinds)
    (hcount : v.itemCount? = some xs.length) :
    finishSequence v kind item xs = .error e ↔ Refused v (.sequence kind item) e := by
  constructor
  · intro h
    cases kind with
    | array n =>
      rw [finishSequence] at h
      split at h
      · cases h
      · next hne =>
        obtain rfl := Except.error.inj h
        exact .length hkind hcount hne
    | _ => cases h
  · intro h
    cases h with
    | kind h => exact absurd hkind h
    | length _ hcount' hne =>
      obtain rfl := Option.some.inj (hcount.symm.trans hcount')
      exact if_neg hne

/-- Sequences take lists, tuples and sets, and some take bytes. -/
theorem mem_kinds_sequence {kind : SequenceKind} {item : HostType} {k : Kind} :
    k ∈ (HostType.sequence kind item).kinds ↔
      k ∈ [Kind.list, Kind.tuple, Kind.set] ∨ k = .bytes ∧ kind.takesBytes item = true := by
  rw [HostType.kinds]
  split <;> simp_all [or_assoc]

theorem decode_sequence_of_members?_eq_none {kind : SequenceKind} {item : HostType}
    (h : v.members? = none) :
    decode schema v (.sequence kind item) = decodeLeaf v (.sequence kind item) := by
  cases v with
  | list | tuple | set => cases h
  | _ => rfl

theorem sequence_failsBy {kind : SequenceKind} {item : HostType} :
    decode schema v (.sequence kind item) = .error e ↔
      FailsBy schema (Refused v (.sequence kind item))
        (HostType.visits schema v (.sequence kind item)) e := by
  have hcontainer (container : Kind) (items : List Value)
      (hkind : v.kind ∈ [Kind.list, Kind.tuple, Kind.set])
      (hcount : v.itemCount? = some items.length) :
      (do finishSequence v kind item (← decodeItems schema container item items 0)) = .error e ↔
        FailsBy schema (Refused v (.sequence kind item)) (Visit.items container item items 0) e :=
    items_failsBy (fun _ => rfl) (fun _ _ _ => rfl) (fun _ _ => Iff.rfl) fun xs hxs =>
      finishSequence_eq_error (mem_kinds_sequence.mpr (.inl hkind)) (hxs ▸ hcount)
  cases v with
  | list items => exact hcontainer .list items (by simp [Value.kind]) rfl
  | tuple items => exact hcontainer .tuple items (by simp [Value.kind]) rfl
  | set items => exact hcontainer .set items (by simp [Value.kind]) rfl
  | bytes bs =>
    by_cases htakes : kind.takesBytes item = true
    · have hdecode : decode schema (.bytes bs) (.sequence kind item) =
          finishSequence (.bytes bs) kind item (bs.map .ofByte) := by
        rw [decode_sequence_of_members?_eq_none rfl, decodeLeaf, if_pos htakes]
        rfl
      rw [hdecode]
      show _ ↔ FailsBy schema _ [] e
      rw [failsBy_nil]
      exact finishSequence_eq_error (mem_kinds_sequence.mpr (.inr ⟨rfl, htakes⟩))
        (by rw [List.length_map, Value.itemCount?])
    · refine failsBy_of_kind ?_ rfl ?_
      · rw [decode_sequence_of_members?_eq_none rfl, decodeLeaf, if_neg htakes]
        rfl
      · simp [mem_kinds_sequence, Value.kind, htakes]
  | _ =>
    refine failsBy_of_kind ?_ rfl (by simp [mem_kinds_sequence, Value.kind])
    rw [decode_sequence_of_members?_eq_none rfl]
    simp only [decodeLeaf, Value.asBytes?, ite_self]
    rfl

theorem mapping_failsBy {kind : MappingKind} {key value : HostType} :
    decode schema v (.mapping kind key value) = .error e ↔
      FailsBy schema (Refused v (.mapping kind key value))
        (HostType.visits schema v (.mapping kind key value)) e := by
  cases v with
  | dict pairs =>
    refine entries_failsBy rfl (fun _ _ _ => rfl) (fun _ _ => Iff.rfl) (fun _ _ => Iff.rfl)
      fun entries => iff_of_false ok_ne_error fun h => ?_
    cases h with
    | kind h => exact h (List.mem_singleton_self _)
  | _ => exact failsBy_of_kind rfl rfl (by simp [Value.kind, HostType.kinds])

theorem struct_failsBy {name : String} : decode schema v (.struct name) = .error e ↔
    FailsBy schema (Refused v (.struct name)) (HostType.visits schema v (.struct name)) e := by
  cases v with
  | record typeName attrs =>
    have hwhole : ¬ Refused (.record typeName attrs) (.struct name) e := by
      intro h
      cases h with
      | kind h => exact absurd (List.mem_singleton_self _) h
    exact Iff.trans bind_pure_eq_error (attrs_failsBy hwhole)
  | _ => exact failsBy_of_kind rfl rfl (by simp [Value.kind, HostType.kinds])

/-- Of the values whose kind has dynamic forms, only integers are refused. -/
theorem not_refused_dynamic (hkind : v.kind ∉ [Kind.int, .callable, .record]) :
    ¬ Refused v .dynamic e := by
  intro h
  cases h with
  | kind h => exact h (List.mem_filter.mpr ⟨v.kind.mem_all, by simp_all⟩)
  | dynamicRange => exact hkind (List.mem_cons_self ..)

theorem dynamicInt_eq_error {n : Int} :
    Value.dynamicInt n = .error e ↔ Refused (.int n) .dynamic e := by
  rw [Value.dynamicInt, Fixed.ofInt?, Fixed.ofInt?]
  constructor
  · intro h
    by_cases hsigned : IntType.int64.InRange n
    · rw [dif_pos hsigned] at h
      cases h
    · by_cases hunsigned : IntType.uint64.InRange n
      · rw [dif_neg hsigned, dif_pos hunsigned] at h
        cases h
      · rw [dif_neg hsigned, dif_neg hunsigned] at h
        obtain rfl := Except.error.inj h
        exact .dynamicRange hsigned hunsigned
  · intro h
    cases h with
    | kind h => exact absurd (by simp [Value.kind, HostType.kinds, Kind.all]) h
    | dynamicRange hsigned hunsigned => rw [dif_neg hsigned, dif_neg hunsigned]

theorem dynamic_failsBy : decode schema v .dynamic = .error e ↔
    FailsBy schema (Refused v .dynamic) (HostType.visits schema v .dynamic) e := by
  have hcontainer (container : Kind) (items : List Value) (hwhole : ¬ Refused v .dynamic e) :
      (do return Dynamic.list (← Value.dynamicItems container items 0)) = .error e ↔
        FailsBy schema (Refused v .dynamic) (Visit.items container .dynamic items 0) e :=
    items_failsBy (fun _ => by rw [Value.dynamicItems]) (fun _ _ _ => by rw [Value.dynamicItems])
      (fun _ _ => decode_dynamic_eq_error.symm) fun _ _ => iff_of_false ok_ne_error hwhole
  cases v with
  | callable | record =>
    exact failsBy_of_kind rfl rfl (by simp [Value.kind, HostType.kinds])
  | int n =>
    rw [decode_dynamic_eq_error, Value.dynamic, dynamicInt_eq_error]
    exact failsBy_nil.symm
  | list items | tuple items | set items =>
    rw [decode_dynamic_eq_error, Value.dynamic]
    exact hcontainer _ items (not_refused_dynamic (by simp [Value.kind]))
  | dict pairs =>
    rw [decode_dynamic_eq_error, Value.dynamic]
    exact entries_failsBy (by rw [Value.dynamicEntries]) (fun _ _ _ => by rw [Value.dynamicEntries])
      (fun _ _ => decode_dynamic_eq_error.symm) (fun _ _ => decode_dynamic_eq_error.symm)
      fun _ => iff_of_false ok_ne_error (not_refused_dynamic (by simp [Value.kind]))
  | _ => exact failsBy_of_ok rfl rfl (not_refused_dynamic (by simp [Value.kind]))

theorem json_failsBy : decode schema v .json = .error e ↔
    FailsBy schema (Refused v .json) (HostType.visits schema v .json) e := by
  have htakes {w : Value} (hdict : w.kind ≠ .dict) : ¬ Refused w .json e := by
    intro h
    cases h with
    | kind h => exact h w.kind.mem_all
    | key => exact hdict rfl
  have hcontainer (container : Kind) (items : List Value) (hwhole : ¬ Refused v .json e) :
      (do return Json.arr (← Value.itemDocuments container items 0)) = .error e ↔
        FailsBy schema (Refused v .json) (Visit.items container .json items 0) e :=
    items_failsBy (fun _ => by rw [Value.itemDocuments]) (fun _ _ _ => by rw [Value.itemDocuments])
      (fun _ _ => decode_json_eq_error.symm) fun _ _ => iff_of_false ok_ne_error hwhole
  cases v with
  | list items | tuple items =>
    rw [decode_json_eq_error, Value.document]
    exact hcontainer _ items (htakes (by simp [Value.kind]))
  | dict pairs =>
    rw [decode_json_eq_error, Value.document, bind_pure_eq_error]
    refine members_failsBy ⟨fun h => ?_, ?_⟩
    · cases h with
      | kind h => exact absurd (Kind.mem_all _) h
      | key h => exact ⟨_, h, rfl⟩
    · rintro ⟨p, hp, rfl⟩
      exact .key hp
  | _ => exact failsBy_of_ok rfl rfl (htakes (by simp [Value.kind]))

/-- Options fail as the type inside them does, but not for null. -/
theorem decode_option_eq_error :
    decode schema v (.option t) = .error e ↔ v ≠ .null ∧ decode schema v t = .error e := by
  by_cases hv : v = .null
  · subst hv
    exact iff_of_false ok_ne_error fun h => h.1 rfl
  · rw [decode_option hv, and_iff_right hv]
    cases decode schema v t <;> simp [Functor.map, Except.map]

/-- **One level.** Decoding fails by the first part that fails, at its place, or by a refusal of the
whole once all parts are converted. -/
theorem decode_eq_error : decode schema v t = .error e ↔
    FailsBy schema (Refused v t) (t.visits schema v) e := by
  induction t with
  | int type => exact int_failsBy
  | char => exact char_failsBy
  | sequence kind item => exact sequence_failsBy
  | mapping kind key value => exact mapping_failsBy
  | struct name => exact struct_failsBy
  | dynamic => exact dynamic_failsBy
  | json => exact json_failsBy
  | pointer t ih => rw [decode_pointer, ih, ← failsBy_congr refused_pointer, HostType.visits]
  | option t ih =>
    rw [decode_option_eq_error, ih]
    by_cases hv : v = .null
    · subst hv
      rw [HostType.visits_null (t := .option t), failsBy_nil, refused_option]
      exact ⟨fun h => absurd rfl h.1, fun h => absurd rfl h.1⟩
    · rw [and_iff_right hv, HostType.visits]
      exact failsBy_congr (refused_option.trans (and_iff_right hv)).symm
  | script =>
    refine failsBy_of_ok (decode_of_isWhole rfl v) rfl fun h => ?_
    cases h with
    | kind h => exact h v.kind.mem_all
  | _ =>
    -- the other types take every value of one kind
    refine failsBy_of_part (decode_of_isWhole rfl v) rfl ?_ fun hkind h => ?_
    · cases v <;> simp [HostType.kinds, Value.kind, Value.asBool?, Value.asInt?, Value.asFloat?,
        Value.asText?, Value.asBytes?, Value.asCallable?]
    · cases h with
      | kind h => exact h hkind

/-! ## Arrays -/

section

variable {n : Nat} {item : HostType}

/-- An array takes what a vector takes, if there are as many items as it has. -/
theorem decode_array_of_vector {x : HostValue}
    (h : decode schema v (.sequence .vector item) = .ok x) :
    ∃ xs, x = .sequence .vector xs ∧
      decode schema v (.sequence (.array n) item) = finishSequence v (.array n) item xs := by
  cases decodes_sequence rfl h with
  | @members _ _ _ vs xs hvs hxs =>
    refine ⟨xs, rfl, ?_⟩
    have hitems (container : Kind) : decodeItems schema container item vs 0 = .ok xs :=
      decodeItems_eq_ok.mpr hxs
    cases v with
    | list | tuple | set =>
      obtain rfl := Option.some.inj hvs
      show (do finishSequence _ _ item (← decodeItems schema _ item _ 0)) = _
      rw [hitems]
      rfl
    | _ => cases hvs
  | packed htakes bs =>
    refine ⟨bs.map .ofByte, rfl, ?_⟩
    have htakes' : (SequenceKind.array n).takesBytes item = true := htakes
    rw [decode_sequence_of_members?_eq_none rfl, decodeLeaf, if_pos htakes']
    rfl

/-- An array refuses a value of the wrong kind in its own name, and fails in a part as a vector
does. -/
theorem decode_array_of_vector_error : decode schema v (.sequence .vector item) = .error e →
    decode schema v (.sequence (.array n) item) =
      .error (match e with
        | .mismatch .. => .wrongType v (.sequence (.array n) item)
        | e => e) := by
  rw [decode_eq_error, decode_eq_error, FailsBy.iff_split, FailsBy.iff_split]
  rintro (⟨before, c, after, cause, hvisits, hbefore, hcause, rfl⟩ | ⟨hall, hrefused⟩)
  · exact .inl ⟨before, c, after, cause, hvisits, hbefore, hcause, rfl⟩
  · refine .inr ⟨hall, ?_⟩
    cases hrefused with
    | kind hkind => exact .kind hkind

end

end ScriptBridge
