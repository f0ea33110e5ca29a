import ScriptBridge.Decoding.Typed
import ScriptBridge.Proofs.Assoc
import ScriptBridge.Proofs.Outcome
import Mathlib.Data.List.Pairwise

/-!
# What decoding a record into a struct means

The attributes of a record are stored one after the other. Several of them can belong to one entry
of the table, by its name in another case or by its identifier, and an entry may have no storage. So
the last attribute of an entry counts, those that reach no storage do not, and the first that is
rejected ends the decoding, even if a later one would have been stored over it.

- `StructDef.attrSlot?_eq_some`, `StructDef.attrSlot?_eq_none`: where an attribute goes.
- `StructDef.RejectsAttr`, `decodeAttrs_eq_error`: a run of attributes fails as the first that is
  rejected.
- `StructDef.attribute?`: the value of the last attribute that belongs to an entry.
- `StructDef.AttrsFilled`, `decodeAttrs_eq_ok`: the fields after a run of attributes.
- `StructDef.AttrsApart`, `StructDef.attribute?_perm`: where no two attributes belong to one entry,
  their order does not matter.
- `decode_record_exact`: whole records.
-/

namespace ScriptBridge

variable {schema : Schema} {d : StructDef} {attrs attrs' : List (String × Value)}
  {stored stored' : List HostValue} {e : ConvertError}

namespace StructDef

/-! ## Where attributes go -/

theorem attrSlot?_eq_some {attr : String} {i : Nat} {t : HostType} :
    d.attrSlot? attr = some (i, t) ↔
      ∃ slot, resolveAttr d.table attr = some i ∧ d.slots[i]? = some slot ∧ slot.type = t := by
  unfold attrSlot?
  simp only [bind, Option.bind_eq_some_iff, pure, Option.some.injEq, Prod.mk.injEq]
  constructor
  · rintro ⟨_, hresolve, slot, hslot, rfl, rfl⟩
    exact ⟨slot, hresolve, hslot, rfl⟩
  · rintro ⟨slot, hresolve, hslot, rfl⟩
    exact ⟨i, hresolve, slot, hslot, rfl, rfl⟩

theorem attrSlot?_eq_none {attr : String} :
    d.attrSlot? attr = none ↔ ∀ i, resolveAttr d.table attr = some i → d.slots[i]? = none := by
  unfold attrSlot?
  simp only [bind, Option.bind_eq_none_iff, pure, reduceCtorEq, imp_false,
    ← Option.eq_none_iff_forall_ne_some]

/-- An attribute belongs to an entry with storage, whose type rejects its value. -/
def RejectsAttr (schema : Schema) (d : StructDef) (attr : String × Value) (cause : ConvertError) :
    Prop :=
  ∃ i slot, resolveAttr d.table attr.1 = some i ∧ d.slots[i]? = some slot ∧
    decode schema attr.2 slot.type = .error cause

/-- What reaches no storage is not rejected. -/
theorem not_rejectsAttr_of_none {attr : String × Value} {cause : ConvertError}
    (hslot : d.attrSlot? attr.1 = none) : ¬ d.RejectsAttr schema attr cause := by
  rintro ⟨i, slot, hresolve, hsome, -⟩
  rw [attrSlot?_eq_none.mp hslot i hresolve] at hsome
  cases hsome

theorem rejectsAttr_iff_of_some {attr : String × Value} {cause : ConvertError} {i : Nat}
    {t : HostType} (hslot : d.attrSlot? attr.1 = some (i, t)) :
    d.RejectsAttr schema attr cause ↔ decode schema attr.2 t = .error cause := by
  obtain ⟨slot, hresolve, hsome, rfl⟩ := attrSlot?_eq_some.mp hslot
  constructor
  · rintro ⟨j, slot', hresolve', hsome', h⟩
    obtain rfl := Option.some.inj (hresolve.symm.trans hresolve')
    obtain rfl := Option.some.inj (hsome.symm.trans hsome')
    exact h
  · intro h
    exact ⟨i, slot, hresolve, hsome, h⟩

/-- The error that an attribute ends the decoding with, if it does. -/
def attrError? (schema : Schema) (d : StructDef) (attr : String × Value) : Option ConvertError :=
  match d.attrSlot? attr.1 with
  | none => none
  | some (_, t) =>
    match decode schema attr.2 t with
    | .error cause => some (.within (.attr d.typeName attr.1) cause)
    | .ok _ => none

theorem attrError?_eq_some {attr : String × Value} :
    d.attrError? schema attr = some e ↔
      ∃ cause, d.RejectsAttr schema attr cause ∧ e = .within (.attr d.typeName attr.1) cause := by
  unfold attrError?
  cases hslot : d.attrSlot? attr.1 with
  | none => exact iff_of_false nofun fun ⟨_, hrejects, _⟩ => not_rejectsAttr_of_none hslot hrejects
  | some p =>
    obtain ⟨i, t⟩ := p
    simp only [rejectsAttr_iff_of_some hslot]
    cases decode schema attr.2 t with
    | error cause => simp [eq_comm]
    | ok x => simp

theorem attrError?_eq_none {attr : String × Value} :
    d.attrError? schema attr = none ↔ ∀ cause, ¬ d.RejectsAttr schema attr cause := by
  constructor
  · intro h cause hrejects
    rw [attrError?_eq_some.mpr ⟨cause, hrejects, rfl⟩] at h
    cases h
  · intro h
    rw [Option.eq_none_iff_forall_ne_some]
    intro e he
    obtain ⟨cause, hrejects, -⟩ := attrError?_eq_some.mp he
    exact h cause hrejects

end StructDef

/-! ## Runs that fail -/

/-- A run of attributes fails as the first of them that fails, whatever has been stored before. -/
theorem decodeAttrs_eq_error_iff_findSome? :
    decodeAttrs schema d attrs stored = .error e ↔
      attrs.findSome? (d.attrError? schema) = some e := by
  induction attrs generalizing stored with
  | nil => simp [decodeAttrs]
  | cons attr rest ih =>
    obtain ⟨name, v⟩ := attr
    rw [decodeAttrs, List.findSome?_cons, StructDef.attrError?]
    cases d.attrSlot? name with
    | none => exact ih
    | some p =>
      obtain ⟨i, t⟩ := p
      simp only [bind_eq_error, ConvertError.locate_eq_error, ConvertError.locate_eq_ok, ih]
      cases decode schema v t with
      | error cause => simp [eq_comm]
      | ok x => simp

/-- The same with the attributes split at the first that is rejected. -/
theorem decodeAttrs_eq_error :
    decodeAttrs schema d attrs stored = .error e ↔
      ∃ before attr after cause, attrs = before ++ attr :: after ∧
        (∀ b ∈ before, ∀ cause, ¬ d.RejectsAttr schema b cause) ∧
        d.RejectsAttr schema attr cause ∧ e = .within (.attr d.typeName attr.1) cause := by
  rw [decodeAttrs_eq_error_iff_findSome?, List.findSome?_eq_some_iff]
  simp only [StructDef.attrError?_eq_some, StructDef.attrError?_eq_none]
  constructor
  · rintro ⟨before, attr, after, hsplit, ⟨cause, hrejects, he⟩, hbefore⟩
    exact ⟨before, attr, after, cause, hsplit, hbefore, hrejects, he⟩
  · rintro ⟨before, attr, after, cause, hsplit, hbefore, hrejects, he⟩
    exact ⟨before, attr, after, hsplit, ⟨cause, hrejects, he⟩, hbefore⟩

/-- A run of attributes fails exactly when one of them is rejected. -/
theorem decodeAttrs_fails_iff :
    (∃ e, decodeAttrs schema d attrs stored = .error e) ↔
      ∃ attr ∈ attrs, ∃ cause, d.RejectsAttr schema attr cause := by
  simp only [decodeAttrs_eq_error_iff_findSome?]
  rw [← Option.isSome_iff_exists, List.findSome?_isSome_iff]
  simp only [Option.isSome_iff_exists, StructDef.attrError?_eq_some]
  refine exists_congr fun attr => and_congr_right fun _ => ?_
  constructor
  · rintro ⟨_, cause, hrejects, -⟩
    exact ⟨cause, hrejects⟩
  · rintro ⟨cause, hrejects⟩
    exact ⟨_, cause, hrejects, rfl⟩

/-! ## Runs that succeed -/

namespace StructDef

/-- The value of the last attribute that belongs to an entry. -/
def attribute? (d : StructDef) (attrs : List (String × Value)) (i : Nat) : Option Value :=
  (attrs.reverse.find? fun attr => resolveAttr d.table attr.1 == some i).map (·.2)

theorem attribute?_cons (d : StructDef) (attr : String × Value) (rest : List (String × Value))
    (i : Nat) :
    d.attribute? (attr :: rest) i =
      (d.attribute? rest i).or
        (if resolveAttr d.table attr.1 = some i then some attr.2 else none) := by
  unfold attribute?
  rw [List.reverse_cons, List.find?_append]
  cases rest.reverse.find? fun attr => resolveAttr d.table attr.1 == some i with
  | some a => simp
  | none =>
    by_cases h : resolveAttr d.table attr.1 = some i
    · simp [h]
    · simp [h]

/-- No two attributes belong to one entry. -/
def AttrsApart (d : StructDef) (attrs : List (String × Value)) : Prop :=
  attrs.Pairwise fun a b => ∀ i, resolveAttr d.table a.1 = some i → resolveAttr d.table b.1 ≠ some i

/-- Where no two attributes belong to one entry, their order does not matter. -/
theorem attribute?_perm (hperm : attrs.Perm attrs') (hapart : d.AttrsApart attrs) (i : Nat) :
    d.attribute? attrs i = d.attribute? attrs' i := by
  have hunique : ∀ a ∈ attrs.reverse, ∀ b ∈ attrs.reverse,
      (resolveAttr d.table a.1 == some i) = true → (resolveAttr d.table b.1 == some i) = true →
        a = b := by
    intro a ha b hb hai hbi
    by_contra hne
    have : Std.Symm fun a b : String × Value => ∀ i, resolveAttr d.table a.1 = some i →
        resolveAttr d.table b.1 ≠ some i := ⟨fun _ _ h i hb ha => h i ha hb⟩
    exact hapart.forall (List.mem_reverse.mp ha) (List.mem_reverse.mp hb) hne i (beq_iff_eq.mp hai)
      (beq_iff_eq.mp hbi)
  have hreverse : attrs.reverse.Perm attrs'.reverse :=
    ((List.reverse_perm attrs).trans hperm).trans (List.reverse_perm attrs').symm
  rw [attribute?, attribute?, find?_perm hreverse hunique]

/-- What the fields hold after a run of attributes. -/
structure AttrsFilled (schema : Schema) (d : StructDef) (attrs : List (String × Value))
    (stored stored' : List HostValue) : Prop where
  length : stored'.length = d.slots.length
  /-- A field holds what the last attribute of its entry decodes to. -/
  given : ∀ i slot v, d.slots[i]? = some slot → d.attribute? attrs i = some v →
    ∃ x, decode schema v slot.type = .ok x ∧ stored'[i]? = some x
  /-- A field that no attribute belongs to is left alone. -/
  kept : ∀ i, d.attribute? attrs i = none → stored'[i]? = stored[i]?

namespace AttrsFilled

variable {attr : String × Value}

/-- An attribute that reaches no storage is passed over. -/
theorem skip (h : d.AttrsFilled schema attrs stored stored') (hslot : d.attrSlot? attr.1 = none) :
    d.AttrsFilled schema (attr :: attrs) stored stored' where
  length := h.length
  given i slot v hsome hv := by
    have hother : ¬ resolveAttr d.table attr.1 = some i := fun hresolve => by
      rw [attrSlot?_eq_none.mp hslot i hresolve] at hsome
      cases hsome
    rw [attribute?_cons, if_neg hother, Option.or_none] at hv
    exact h.given i slot v hsome hv
  kept i hnone := by
    rw [attribute?_cons, Option.or_eq_none_iff] at hnone
    exact h.kept i hnone.1

/-- An attribute that is stored stays, unless a later one belongs to the same entry. -/
theorem store {j : Nat} {t : HostType} {x : HostValue}
    (h : d.AttrsFilled schema attrs (stored.set j x) stored')
    (hstored : stored.length = d.slots.length) (hslot : d.attrSlot? attr.1 = some (j, t))
    (hx : decode schema attr.2 t = .ok x) :
    d.AttrsFilled schema (attr :: attrs) stored stored' := by
  obtain ⟨slot, hresolve, hsome, rfl⟩ := attrSlot?_eq_some.mp hslot
  have hj : j < stored.length := hstored ▸ (List.getElem?_eq_some_iff.mp hsome).1
  refine ⟨h.length, fun i slot' v hsome' hv => ?_, fun i hnone => ?_⟩
  · rw [attribute?_cons] at hv
    cases hlater : d.attribute? attrs i with
    | some u =>
      rw [hlater, Option.some_or] at hv
      obtain rfl := Option.some.inj hv
      exact h.given i slot' u hsome' hlater
    | none =>
      rw [hlater, Option.none_or, hresolve] at hv
      by_cases hij : j = i
      · subst hij
        obtain rfl := Option.some.inj (hsome.symm.trans hsome')
        rw [if_pos rfl] at hv
        obtain rfl := Option.some.inj hv
        exact ⟨x, hx, (h.kept j hlater).trans (List.getElem?_set_self hj)⟩
      · rw [if_neg fun h => hij (Option.some.inj h)] at hv
        cases hv
  · rw [attribute?_cons, Option.or_eq_none_iff, hresolve] at hnone
    have hij : j ≠ i := fun hij => by simp [hij] at hnone
    rw [h.kept i hnone.1, List.getElem?_set_ne hij]

/-- The fields are determined by what was stored before and by the attributes. -/
theorem unique {stored'' : List HostValue} (h : d.AttrsFilled schema attrs stored stored')
    (h' : d.AttrsFilled schema attrs stored stored'') : stored' = stored'' := by
  refine List.ext_getElem? fun i => ?_
  cases hv : d.attribute? attrs i with
  | none => rw [h.kept i hv, h'.kept i hv]
  | some v =>
    cases hslot : d.slots[i]? with
    | none =>
      have hlength : d.slots.length ≤ i := List.getElem?_eq_none_iff.mp hslot
      rw [List.getElem?_eq_none (h.length ▸ hlength), List.getElem?_eq_none (h'.length ▸ hlength)]
    | some slot =>
      obtain ⟨x, hx, hstored⟩ := h.given i slot v hslot hv
      obtain ⟨x', hx', hstored'⟩ := h'.given i slot v hslot hv
      obtain rfl := Except.ok.inj (hx.symm.trans hx')
      rw [hstored, hstored']

/-- Only the last attribute of each entry matters. -/
theorem congr (h : d.AttrsFilled schema attrs stored stored')
    (hattrs : ∀ i, d.attribute? attrs i = d.attribute? attrs' i) :
    d.AttrsFilled schema attrs' stored stored' where
  length := h.length
  given i slot v hslot hv := h.given i slot v hslot ((hattrs i).trans hv)
  kept i hnone := h.kept i ((hattrs i).trans hnone)

end AttrsFilled

end StructDef

/-- A run of attributes that succeeds fills the fields. -/
theorem attrsFilled_of_decodeAttrs (hstored : stored.length = d.slots.length)
    (h : decodeAttrs schema d attrs stored = .ok stored') :
    d.AttrsFilled schema attrs stored stored' := by
  induction attrs generalizing stored with
  | nil =>
    obtain rfl := Except.ok.inj h
    exact ⟨hstored, fun _ _ _ _ hv => (nomatch hv), fun _ _ => rfl⟩
  | cons attr rest ih =>
    obtain ⟨name, v⟩ := attr
    rw [decodeAttrs] at h
    cases hslot : d.attrSlot? name with
    | none =>
      rw [hslot] at h
      exact (ih hstored h).skip hslot
    | some p =>
      obtain ⟨i, t⟩ := p
      rw [hslot] at h
      obtain ⟨x, hx, hrest⟩ := bind_eq_ok.mp h
      exact (ih (List.length_set.trans hstored) hrest).store hstored hslot
        (ConvertError.locate_eq_ok.mp hx)

/-- A run of attributes succeeds when none of them is rejected, and then fills the fields. -/
theorem decodeAttrs_eq_ok (hstored : stored.length = d.slots.length) :
    decodeAttrs schema d attrs stored = .ok stored' ↔
      (∀ attr ∈ attrs, ∀ cause, ¬ d.RejectsAttr schema attr cause) ∧
        d.AttrsFilled schema attrs stored stored' := by
  constructor
  · intro h
    refine ⟨fun attr hattr cause hrejects => ?_, attrsFilled_of_decodeAttrs hstored h⟩
    obtain ⟨e, he⟩ := decodeAttrs_fails_iff.mpr ⟨attr, hattr, cause, hrejects⟩
    exact ok_ne_error (h.symm.trans he)
  · rintro ⟨hall, hfilled⟩
    rcases ok_or_error (decodeAttrs schema d attrs stored) with ⟨stored'', h⟩ | he
    · rw [h, hfilled.unique (attrsFilled_of_decodeAttrs hstored h)]
    · obtain ⟨attr, hattr, cause, hrejects⟩ := decodeAttrs_fails_iff.mp he
      exact absurd hrejects (hall attr hattr cause)

/-- Attributes that reach no storage may be left out. -/
theorem decodeAttrs_append_cons_of_none {attr : String × Value} (hslot : d.attrSlot? attr.1 = none)
    (before after : List (String × Value)) (stored : List HostValue) :
    decodeAttrs schema d (before ++ attr :: after) stored =
      decodeAttrs schema d (before ++ after) stored := by
  induction before generalizing stored with
  | nil =>
    rw [List.nil_append, decodeAttrs, hslot]
    rfl
  | cons b before ih =>
    rw [List.cons_append, List.cons_append, decodeAttrs, decodeAttrs]
    cases d.attrSlot? b.1 with
    | none => exact ih stored
    | some p => simp only [ih]

/-! ## Whole records -/

section

variable {name typeName : String}

theorem decode_record_eq_error :
    decode schema (.record typeName attrs) (.struct name) = .error e ↔
      decodeAttrs schema (schema.lookup name) attrs (schema.lookup name).initialStored =
        .error e :=
  bind_pure_eq_error

theorem decode_record_eq_ok {x : HostValue} :
    decode schema (.record typeName attrs) (.struct name) = .ok x ↔
      (∀ attr ∈ attrs, ∀ cause, ¬ (schema.lookup name).RejectsAttr schema attr cause) ∧
        ∃ stored,
          (schema.lookup name).AttrsFilled schema attrs (schema.lookup name).initialStored stored ∧
            x = .struct (schema.lookup name).decl stored (schema.lookup name).initialHidden := by
  have hinitial : (schema.lookup name).initialStored.length = (schema.lookup name).slots.length :=
    List.length_map _
  show (do
    return HostValue.struct (schema.lookup name).decl
      (← decodeAttrs schema (schema.lookup name) attrs (schema.lookup name).initialStored)
      (schema.lookup name).initialHidden) = _ ↔ _
  simp only [bind_eq_ok, pure_eq_ok, decodeAttrs_eq_ok hinitial]
  constructor
  · rintro ⟨stored, ⟨hall, hfilled⟩, rfl⟩
    exact ⟨hall, stored, hfilled, rfl⟩
  · rintro ⟨hall, stored, hfilled, rfl⟩
    exact ⟨stored, ⟨hall, hfilled⟩, rfl⟩

/-- Where no two attributes belong to one entry, the record is decoded to the same struct in every
order, or in none. -/
theorem decode_record_perm (hperm : attrs.Perm attrs')
    (hapart : (schema.lookup name).AttrsApart attrs) (x : HostValue) :
    decode schema (.record typeName attrs) (.struct name) = .ok x ↔
      decode schema (.record typeName attrs') (.struct name) = .ok x := by
  have hlast := StructDef.attribute?_perm hperm hapart
  rw [decode_record_eq_ok, decode_record_eq_ok]
  refine and_congr ?_ (exists_congr fun stored => and_congr_left fun _ => ?_)
  · exact ⟨fun h attr hattr => h attr (hperm.mem_iff.mpr hattr),
      fun h attr hattr => h attr (hperm.mem_iff.mp hattr)⟩
  · exact ⟨fun h => h.congr hlast, fun h => h.congr fun i => (hlast i).symm⟩

end

/-- **What a record decodes to.** Decoding a record into a struct fails exactly when an attribute
belongs to an entry with storage whose type rejects its value, and with the error of the first such
attribute. Otherwise each field holds what the last attribute of its entry decodes to, or what it
starts with. Attributes that reach no storage may be left out, and where no two attributes belong to
one entry their order does not matter. -/
theorem decode_record_exact (schema : Schema) (name typeName : String)
    (attrs : List (String × Value)) :
    let d := schema.lookup name
    let outcome := fun attrs => decode schema (.record typeName attrs) (.struct name)
    ((∃ e, outcome attrs = .error e) ↔
        ∃ attr ∈ attrs, ∃ cause, d.RejectsAttr schema attr cause) ∧
      (∀ e, outcome attrs = .error e ↔
        ∃ before attr after cause, attrs = before ++ attr :: after ∧
          (∀ b ∈ before, ∀ cause, ¬ d.RejectsAttr schema b cause) ∧
            d.RejectsAttr schema attr cause ∧ e = .within (.attr d.typeName attr.1) cause) ∧
      ((∀ attr ∈ attrs, ∀ cause, ¬ d.RejectsAttr schema attr cause) →
        ∃ stored, outcome attrs = .ok (.struct d.decl stored d.initialHidden) ∧
          d.AttrsFilled schema attrs d.initialStored stored) ∧
      (∀ before attr after, attrs = before ++ attr :: after →
        (∀ i, resolveAttr d.table attr.1 = some i → d.slots[i]? = none) →
          outcome attrs = outcome (before ++ after)) ∧
      (d.AttrsApart attrs → ∀ attrs', attrs.Perm attrs' →
        (∃ x, outcome attrs = .ok x ∧ outcome attrs' = .ok x) ∨
          ∃ e e', outcome attrs = .error e ∧ outcome attrs' = .error e') := by
  intro d outcome
  have herror : ∀ e, outcome attrs = .error e ↔
      decodeAttrs schema d attrs d.initialStored = .error e := fun e => decode_record_eq_error
  refine ⟨?_, fun e => (herror e).trans decodeAttrs_eq_error, fun hall => ?_, ?_,
    fun hapart attrs' hperm => both_ok_or_both_error (decode_record_perm hperm hapart)⟩
  · simp only [herror]
    exact decodeAttrs_fails_iff
  · rcases ok_or_error (outcome attrs) with ⟨x, hx⟩ | ⟨e, he⟩
    · obtain ⟨-, stored, hfilled, rfl⟩ := decode_record_eq_ok.mp hx
      exact ⟨stored, hx, hfilled⟩
    · obtain ⟨attr, hattr, cause, hrejects⟩ := decodeAttrs_fails_iff.mp ⟨e, (herror e).mp he⟩
      exact absurd hrejects (hall attr hattr cause)
  · rintro before attr after rfl hslot
    have hnone : d.attrSlot? attr.1 = none := StructDef.attrSlot?_eq_none.mpr hslot
    show (do return HostValue.struct d.decl (← decodeAttrs schema d _ d.initialStored) _) = _
    rw [decodeAttrs_append_cons_of_none hnone]
    rfl

/-- A file has a path, and a size that goes by another name in the host; an owner stands in the
table and has no storage. The second path counts, whatever its case, and a size that is no integer
ends the decoding before a path that is no text. -/
theorem decode_record_exact_file :
    let schema := Schema.empty.declare "File"
      [(FieldSpec.ofIdentifier "path", .string),
        ((FieldSpec.ofIdentifier "bytes").withName "size", .int .int64)]
      [FieldSpec.ofIdentifier "owner"] []
    let d := schema.lookup "File"
    let attrs := [("Path", Value.text "a"), ("owner", .null), ("SIZE", .int 1), ("path", .text "b")]
    let fewer := [("Path", Value.text "a"), ("SIZE", .int 1), ("path", .text "b")]
    let apart := [("SIZE", Value.int 1), ("path", .text "b")]
    let bad := [("owner", Value.int 0), ("size", .text "x"), ("path", .int 2)]
    (∀ attr ∈ attrs, ∀ cause, ¬ d.RejectsAttr schema attr cause) ∧
      (∃ stored, decode schema (.record "File" attrs) (.struct "File") =
          .ok (.struct d.decl stored []) ∧
        stored.length = 2 ∧ stored[0]? = some (.string "b") ∧
          decode schema (.record "File" attrs) (.struct "File") =
            decode schema (.record "File" fewer) (.struct "File")) ∧
      d.AttrsApart apart ∧
      (∃ x, decode schema (.record "File" apart) (.struct "File") = .ok x ∧
        decode schema (.record "File" apart.reverse) (.struct "File") = .ok x) ∧
      decode schema (.record "File" bad) (.struct "File") =
        .error (.within (.attr "File" "size") (.wrongType (.text "x") (.int .int64))) := by
  intro schema d attrs fewer apart bad
  have haccepted : ∀ attr ∈ attrs, ∀ cause, ¬ d.RejectsAttr schema attr cause := by
    simp only [← StructDef.attrError?_eq_none]
    simp only [attrs, List.forall_mem_cons, List.not_mem_nil, false_implies, implies_true, and_true]
    exact ⟨rfl, rfl, rfl, rfl⟩
  have hapart : d.AttrsApart apart :=
    List.pairwise_pair.mpr fun i hsize hpath => by
      have hsize' : resolveAttr d.table "SIZE" = some 1 := by decide
      have hpath' : resolveAttr d.table "path" = some 0 := by decide
      rw [hsize] at hsize'
      rw [hpath] at hpath'
      cases hsize'.symm.trans hpath'
  have howner : ∀ i, resolveAttr d.table "owner" = some i → d.slots[i]? = none := by
    intro i hi
    have howner' : resolveAttr d.table "owner" = some 2 := by decide
    obtain rfl := Option.some.inj (hi.symm.trans howner')
    rfl
  obtain ⟨-, -, hok, hdrop, -⟩ := decode_record_exact schema "File" "File" attrs
  obtain ⟨stored, hstored, hfilled⟩ := hok haccepted
  obtain ⟨x, hx, hfirst⟩ := hfilled.given 0 _ (.text "b") rfl (by rfl)
  obtain rfl : HostValue.string "b" = x := Except.ok.inj hx
  obtain ⟨-, hfails, -⟩ := decode_record_exact schema "File" "File" bad
  have hbad : d.attrError? schema ("owner", .int 0) = none := rfl
  have hsize : d.RejectsAttr schema ("size", .text "x") (.wrongType (.text "x") (.int .int64)) :=
    ⟨1, _, by decide, rfl, rfl⟩
  have horder := (decode_record_exact schema "File" "File" apart).2.2.2.2 hapart apart.reverse
    (List.reverse_perm apart).symm
  have hsame : ∃ x, decode schema (.record "File" apart) (.struct "File") = .ok x ∧
      decode schema (.record "File" apart.reverse) (.struct "File") = .ok x := by
    refine horder.resolve_right ?_
    rintro ⟨e, -, he, -⟩
    cases he
  refine ⟨haccepted, ⟨stored, hstored, hfilled.length, hfirst, ?_⟩, hapart, hsame, ?_⟩
  · exact hdrop [("Path", .text "a")] ("owner", .null) [("SIZE", .int 1), ("path", .text "b")] rfl
      howner
  · exact (hfails _).mpr ⟨[("owner", .int 0)], ("size", .text "x"), [("path", .int 2)], _, rfl,
      List.forall_mem_singleton.mpr (StructDef.attrError?_eq_none.mp hbad), hsize, rfl⟩

end ScriptBridge
