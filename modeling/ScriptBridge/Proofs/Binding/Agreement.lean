import ScriptBridge.Proofs.Binding.KeywordOutcomes

/-!
# Where both binders agree

One binder goes through the keywords of a call and asks at the end what is missing, the other goes
through the entries of the table and looks for their keywords. They fail in different places, and
write in different orders. Where each keyword can mean one entry only, and both take the same
entries for required, they accept the same calls and leave the same in storage.

- `StructDef.SharedTable`, `StructDef.SharedCall`: tables and calls that mean the same to both.
- `StructDef.SharedTable.keyword?_eq_some`, `FieldSpec.argument?_nil_eq_some`: the argument of an
  entry is that of its name, for either binder.
- `StructDef.SharedTable.bindArguments_eq_ok_iff_meets`: calls that the first binder accepts, in
  terms of the other one.
- `bindArguments_agrees_bindKeywords`: the agreement.
-/

namespace ScriptBridge

variable {schema : Schema} {d : StructDef} {kwargs : List (String × Value)} {spec : FieldSpec}
  {i : Nat} {v : Value} {stored : Storage}

/-- Tables that mean the same to both binders. -/
structure StructDef.SharedTable (d : StructDef) : Prop where
  /-- No two entries have the same position. -/
  positions : d.table.Pairwise FieldSpec.PositionsDiffer
  /-- No two entries have the same name. -/
  names : d.table.Pairwise FieldSpec.NamesDiffer
  /-- The identifier of an entry is the name of no other. -/
  identifiers : ∀ (i j : Nat) (a b : FieldSpec), d.table[i]? = some a → d.table[j]? = some b →
    i ≠ j → b.name ≠ some a.ident
  /-- Entries with a name are required when they are not optional. -/
  named : ∀ spec ∈ d.table, spec.name ≠ none → spec.required = !spec.optional
  /-- Entries without a name are not required. -/
  unnamed : ∀ spec ∈ d.table, spec.name = none → spec.required = false

/-- Calls with keywords alone that mean the same to both binders. -/
structure StructDef.SharedCall (d : StructDef) (kwargs : List (String × Value)) : Prop where
  /-- No keyword is given twice. -/
  differ : (kwargs.map (·.1)).Nodup
  /-- Every keyword is the name of an entry. -/
  known : ∀ kw ∈ kwargs, ∃ spec ∈ d.table, spec.name = some kw.1
  /-- No value is null. -/
  present : ∀ kw ∈ kwargs, kw.2 ≠ .null

/-! ## The argument of an entry -/

/-- An identifier among the keywords is the name of its entry. -/
theorem StructDef.SharedTable.name_of_ident (htable : d.SharedTable) (hcall : d.SharedCall kwargs)
    (hspec : d.table[i]? = some spec) (hident : spec.ident ∈ kwargs.map (·.1)) :
    spec.name = some spec.ident := by
  obtain ⟨kw, hkw, hkey⟩ := List.mem_map.mp hident
  obtain ⟨other, hother, hname⟩ := hcall.known kw hkw
  obtain ⟨j, hj⟩ := List.mem_iff_getElem?.mp hother
  rw [hkey] at hname
  by_cases hij : i = j
  · subst hij
    obtain rfl := Option.some.inj (hspec.symm.trans hj)
    exact hname
  · exact absurd hname (htable.identifiers i j spec other hspec hj hij)

/-- The argument that an entry looks for is that of its name. -/
theorem StructDef.SharedTable.keyword?_eq_some (htable : d.SharedTable)
    (hcall : d.SharedCall kwargs) (hspec : d.table[i]? = some spec) :
    spec.keyword? kwargs = some v ↔ ∃ name, spec.name = some name ∧ (name, v) ∈ kwargs := by
  constructor
  · intro h
    obtain ⟨name, before, key, after, hname, hkwargs, hkey, -, -⟩ :=
      FieldSpec.keyword?_eq_some.mp h
    have hmem : (key, v) ∈ kwargs := by simp [hkwargs]
    rcases hkey with rfl | rfl
    · exact ⟨key, hname, hmem⟩
    · exact ⟨spec.ident, htable.name_of_ident hcall hspec (List.mem_map_of_mem hmem), hmem⟩
  · rintro ⟨name, hname, hmem⟩
    have honce : spec.CalledOnce kwargs := by
      intro name' hname' hne _ hident
      rw [htable.name_of_ident hcall hspec hident] at hname'
      exact hne (Option.some.inj hname')
    exact honce.keyword?_of_mem hcall.differ hname hmem (hcall.present _ hmem)

/-- Without positional arguments, and with keywords that differ, the argument that reaches an entry
is that of its name. -/
theorem FieldSpec.argument?_nil_eq_some (hkeys : (kwargs.map (·.1)).Nodup) :
    spec.argument? [] kwargs = some v ↔ ∃ name, spec.name = some name ∧ (name, v) ∈ kwargs := by
  rw [argument?]
  constructor
  · intro h
    cases hfind : kwargs.reverse.find? fun kw => spec.name == some kw.1 with
    | none => simp [hfind] at h
    | some kw =>
      obtain rfl : kw.2 = v := by simpa [hfind] using h
      exact ⟨kw.1, by simpa using List.find?_some hfind,
        List.mem_reverse.mp (List.mem_of_find?_eq_some hfind)⟩
  · rintro ⟨name, hname, hmem⟩
    have hunique : ∀ kw ∈ kwargs.reverse, (spec.name == some kw.1) = true → kw = (name, v) := by
      intro kw hkw hkey
      have hsame : name = kw.1 := by simpa [hname] using hkey
      exact List.inj_on_of_nodup_map hkeys (List.mem_reverse.mp hkw) hmem hsame.symm
    rw [find?_eq_some_of_unique (List.mem_reverse.mpr hmem) (by simp [hname]) hunique]

/-- Without positional arguments an entry is reached by a keyword of its name. -/
theorem FieldSpec.reached_nil : spec.Reached [] kwargs ↔ ∃ kw ∈ kwargs, spec.name = some kw.1 := by
  simp [Reached]

/-! ## Whole calls -/

variable {landings : List (Nat × HostValue)}

/-- Where keywords land and nothing is missing, each entry binds. -/
theorem StructDef.SharedTable.meets_of_lands (htable : d.SharedTable)
    (hcall : d.SharedCall kwargs)
    (hlands : List.Forall₂ (Argument.Lands schema d) (callArguments [] kwargs) landings)
    (hreached : ∀ spec ∈ d.table, spec.required = true → spec.isBound = true →
      spec.Reached [] kwargs)
    (hspec : d.table[i]? = some spec) : d.Meets schema kwargs i spec := by
  have hsound := tableFault?_eq_none.mpr ⟨htable.positions, htable.names⟩
  cases hv : spec.keyword? kwargs with
  | some v =>
    obtain ⟨name, hname, hmem⟩ := (htable.keyword?_eq_some hcall hspec).mp hv
    obtain ⟨l, -, hland⟩ := forall₂_exists_right hlands (.keyword name v)
      (mem_callArguments.mpr (.inr ⟨_, hmem, rfl⟩))
    -- the entry where the keyword landed is the one that has its name
    obtain rfl : l.1 = i := by
      simpa [Argument.isFor, hname] using isFor_of_lands hsound hland hspec
    exact .inl ⟨v, l.2, hv, hland.2⟩
  | none =>
    refine .inr ⟨hv, ?_⟩
    by_cases hname : spec.name = none
    · exact .inl hname
    right
    by_contra hoptional
    have hmem := List.mem_of_getElem? hspec
    have hrequired : spec.required = true := by
      rw [htable.named spec hmem hname]
      simpa using hoptional
    have hbound : spec.isBound = true := by
      rw [FieldSpec.isBound, Option.isSome_iff_ne_none.mpr hname, Bool.true_or]
    obtain ⟨kw, hkw, hname⟩ := FieldSpec.reached_nil.mp (hreached spec hmem hrequired hbound)
    rw [(htable.keyword?_eq_some hcall hspec).mpr ⟨kw.1, hname, hkw⟩] at hv
    cases hv

/-- Calls that the binder of positions accepts, in terms of the entries. -/
theorem StructDef.SharedTable.bindArguments_eq_ok_iff_meets (htable : d.SharedTable)
    (hcall : d.SharedCall kwargs) :
    (bindArguments schema d [] kwargs stored).outcome = .ok () ↔
      ∀ (i : Nat) (spec : FieldSpec), d.table[i]? = some spec → d.Meets schema kwargs i spec := by
  have hsound := tableFault?_eq_none.mpr ⟨htable.positions, htable.names⟩
  constructor
  · intro h i spec hspec
    obtain ⟨-, landings, hlands, hmissing, -⟩ := bindArguments_outcome_eq_ok.mp h
    exact htable.meets_of_lands hcall hlands ((nothing_missing_iff hsound hlands).mp hmissing) hspec
  · intro h
    have hkeyword : ∀ kw ∈ kwargs, ∃ i spec x, d.table[i]? = some spec ∧
        spec.name = some kw.1 ∧ d.Takes schema i kw.2 x := by
      intro kw hkw
      obtain ⟨spec, hmem, hname⟩ := hcall.known kw hkw
      obtain ⟨i, hspec⟩ := List.mem_iff_getElem?.mp hmem
      have hv := (htable.keyword?_eq_some hcall hspec).mpr ⟨kw.1, hname, hkw⟩
      rcases h i spec hspec with ⟨v, x, hv', hx⟩ | ⟨hnone, -⟩
      · obtain rfl := Option.some.inj (hv.symm.trans hv')
        exact ⟨i, spec, x, hspec, hname, hx⟩
      · cases hnone.symm.trans hv
    have hreached : ∀ spec ∈ d.table, spec.required = true → spec.isBound = true →
        spec.Reached [] kwargs := by
      intro spec hmem hrequired _
      obtain ⟨i, hspec⟩ := List.mem_iff_getElem?.mp hmem
      have hname : spec.name ≠ none := by
        intro hname
        simp [htable.unnamed spec hmem hname] at hrequired
      rcases h i spec hspec with ⟨v, x, hv, -⟩ | ⟨-, hnone | hoptional⟩
      · obtain ⟨name, hname, hkw⟩ := (htable.keyword?_eq_some hcall hspec).mp hv
        exact FieldSpec.reached_nil.mpr ⟨_, hkw, hname⟩
      · exact absurd hnone hname
      · simp [htable.named spec hmem hname, hoptional] at hrequired
    obtain ⟨landings, hlands⟩ : ∃ landings,
        List.Forall₂ (Argument.Lands schema d) (callArguments [] kwargs) landings :=
      (lands_iff hsound).mpr ⟨by simp, hkeyword⟩
    have hmissing := (nothing_missing_iff hsound hlands).mpr hreached
    rw [(bindArguments_eq_ok stored).mpr ⟨hsound, landings, hlands, hmissing, rfl⟩]

/-- Fields that both binders have filled hold the same. -/
theorem StructDef.SharedTable.eq_of_filled (htable : d.SharedTable) (hcall : d.SharedCall kwargs)
    {after after' : Storage} (h : d.Filled schema [] kwargs stored after)
    (h' : d.KeywordsFilled schema kwargs d.table 0 stored after') : after = after' := by
  have hargument : ∀ {i : Nat} {spec : FieldSpec}, d.table[i]? = some spec →
      spec.argument? [] kwargs = spec.keyword? kwargs := fun hspec => Option.ext fun v => by
    rw [FieldSpec.argument?_nil_eq_some hcall.differ, htable.keyword?_eq_some hcall hspec]
  refine List.ext_getElem? fun i => ?_
  by_cases hsome : ∃ spec v, d.table[i]? = some spec ∧ spec.keyword? kwargs = some v
  · obtain ⟨spec, v, hspec, hv⟩ := hsome
    obtain ⟨x, ⟨slot, hslot, hx⟩, hget⟩ := h.reached i spec v hspec ((hargument hspec).trans hv)
    obtain ⟨x', ⟨slot', hslot', hx'⟩, hget'⟩ := h'.supplied i spec v hspec hv
    rw [Nat.zero_add] at hslot' hget'
    obtain rfl := Option.some.inj (hslot.symm.trans hslot')
    obtain rfl := Except.ok.inj (hx.symm.trans hx')
    rw [hget, hget']
  · have hnone : ∀ spec, d.table[i]? = some spec → spec.keyword? kwargs = none := by
      intro spec hspec
      rw [Option.eq_none_iff_forall_ne_some]
      exact fun v hv => hsome ⟨spec, v, hspec, hv⟩
    rw [h.kept i fun spec hspec => (hargument hspec).trans (hnone spec hspec)]
    refine (h'.kept i fun j spec hspec hij => ?_).symm
    obtain rfl : i = j := hij.trans (Nat.zero_add j)
    exact hnone spec hspec

/-- **Both binders agree.** Take a table in which positions and names differ, no identifier is the
name of another entry, and both binders take the same entries for required; and a call without
positional arguments whose keywords differ, are names of entries, and carry no null. Then both
binders accept the call or neither does, and if they do, they leave the same in storage. -/
theorem bindArguments_agrees_bindKeywords (schema : Schema) (d : StructDef)
    (kwargs : List (String × Value)) (stored : Storage) (hstored : stored.length = d.slots.length)
    (htable : d.SharedTable) (hcall : d.SharedCall kwargs) :
    ((bindArguments schema d [] kwargs stored).outcome = .ok () ↔
        (bindKeywords schema d kwargs stored).outcome = .ok ()) ∧
      ((bindKeywords schema d kwargs stored).outcome = .ok () →
        (bindArguments schema d [] kwargs stored).stored =
          (bindKeywords schema d kwargs stored).stored) := by
  have hiff : (bindArguments schema d [] kwargs stored).outcome = .ok () ↔
      (bindKeywords schema d kwargs stored).outcome = .ok () :=
    (htable.bindArguments_eq_ok_iff_meets hcall).trans (bindKeywords_eq_ok hstored).symm
  refine ⟨hiff, fun h => ?_⟩
  obtain ⟨hsound, landings, hlands, -, hafter⟩ := bindArguments_outcome_eq_ok.mp (hiff.mpr h)
  rw [hafter]
  exact htable.eq_of_filled hcall (filled_of_lands hsound hlands hstored)
    (keywordsFilled_of_bindKeywords hstored h)

/-- A fetch with an address and an optional number of retries, called with the retries first; its
cache has a position and no name. -/
theorem bindArguments_agrees_bindKeywords_fetch :
    let url := (((FieldSpec.ofIdentifier "url").withName "url").withPosition 0).withRequired true
    let retries := ((FieldSpec.ofIdentifier "retry_count").withName "retries").withOptional true
    let cache := (FieldSpec.ofIdentifier "cache").withPosition 1
    let d : StructDef := ⟨⟨"Fetch", [url, retries, cache], []⟩,
      [⟨.string, .string ""⟩, ⟨.bigInt, .bigInt 0⟩, ⟨.bool, .bool true⟩], []⟩
    let kwargs := [("retries", Value.int 3), ("url", .text "u")]
    let stored := d.initialStored
    stored.length = d.slots.length ∧ d.SharedTable ∧ d.SharedCall kwargs ∧
      (bindArguments .empty d [] kwargs stored).outcome = .ok () ∧
      (bindArguments .empty d [] kwargs stored).stored =
        (bindKeywords .empty d kwargs stored).stored ∧
      bindKeywords .empty d kwargs stored = ⟨.ok (), [.string "u", .bigInt 3, .bool true]⟩ := by
  intro url retries cache d kwargs stored
  have htable : d.SharedTable := by
    obtain ⟨hpositions, hnames⟩ :=
      tableFault?_eq_none.mp (show tableFault? d.table = none from rfl)
    have hidentifiers : ∀ i j : Fin d.table.length, i ≠ j →
        d.table[j].name ≠ some d.table[i].ident := by decide
    refine ⟨hpositions, hnames, fun i j a b ha hb hij => ?_, by decide, by decide⟩
    obtain ⟨hi, rfl⟩ := List.getElem?_eq_some_iff.mp ha
    obtain ⟨hj, rfl⟩ := List.getElem?_eq_some_iff.mp hb
    exact hidentifiers ⟨i, hi⟩ ⟨j, hj⟩ fun h => hij (Fin.mk.inj h)
  have hcall : d.SharedCall kwargs := by
    refine ⟨by decide, by decide, ?_⟩
    exact List.forall_mem_cons.mpr ⟨nofun, List.forall_mem_singleton.mpr nofun⟩
  have h := bindArguments_agrees_bindKeywords .empty d kwargs stored rfl htable hcall
  exact ⟨rfl, htable, hcall, h.1.mpr rfl, h.2 rfl, rfl⟩

end ScriptBridge
