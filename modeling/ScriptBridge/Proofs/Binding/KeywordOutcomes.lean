import ScriptBridge.Proofs.Binding.Keywords

/-!
# How a call with keywords alone ends

The table leads, so that the entry that fails is the first one in the order of the table, whatever
the order of the call. Fields of entries before it have been written by then, and those after it
have not.

- `FieldSpec.SuppliedWith`, `FieldSpec.keyword?_eq_some`: the argument that a call has for an entry,
  in terms of the call.
- `StructDef.Meets`, `StructDef.KeywordFault`: an entry that binds, and one that stops the binding.
- `bindKeywordsFrom_cons_eq_error`: what a failed call makes of one entry.
- `meets_of_bound`, `keywordFault_of_bindKeywordsFrom`: a run of entries that is bound, and one that
  is not.
- `StructDef.Knows`, `FieldSpec.keyword?_filter_knows`: keywords that no entry looks for count for
  nothing.
- `bindKeywords_eq_ok`, `keywordFault_of_bindKeywords`: when a whole call is bound, and where it
  fails.
- `bindKeywords_exact`: how each call ends, and what it leaves in storage.
-/

namespace ScriptBridge

variable {schema : Schema} {d : StructDef} {kwargs : List (String × Value)} {spec : FieldSpec}
  {specs : List FieldSpec} {index : Nat} {stored stored' : Storage} {e : ConvertError}

/-! ## The argument of an entry -/

/-- A call supplies an entry with a value: of the keywords that are the entry's name or its
identifier, the first one in the call carries it, and it is not null. -/
def FieldSpec.SuppliedWith (spec : FieldSpec) (kwargs : List (String × Value)) (v : Value) : Prop :=
  ∃ name before key after, spec.name = some name ∧ kwargs = before ++ (key, v) :: after ∧
    (key = name ∨ key = spec.ident) ∧ (∀ kw ∈ before, kw.1 ≠ name ∧ kw.1 ≠ spec.ident) ∧ v ≠ .null

theorem Value.isNull_eq_false {v : Value} : v.isNull = false ↔ v ≠ .null := by
  cases v <;> simp [isNull]

/-- The argument of an entry is what the call supplies it with. -/
theorem FieldSpec.keyword?_eq_some {v : Value} :
    spec.keyword? kwargs = some v ↔ spec.SuppliedWith kwargs v := by
  have hsupplied : ∀ name, spec.supplied? name kwargs = some v ↔
      v ≠ .null ∧ ∃ key,
        kwargs.find? (fun kw => kw.1 == name || kw.1 == spec.ident) = some (key, v) := by
    intro name
    rw [supplied?]
    cases kwargs.find? fun kw => kw.1 == name || kw.1 == spec.ident with
    | none => simp
    | some kw =>
      obtain ⟨key, u⟩ := kw
      by_cases hnull : u = .null
      · subst hnull
        simp [Value.isNull, eq_comm]
      · simp only [Value.isNull_eq_false.mpr hnull, Bool.false_eq_true, ↓reduceIte,
          Option.some.injEq, Prod.mk.injEq]
        constructor
        · rintro rfl
          exact ⟨hnull, key, rfl, rfl⟩
        · rintro ⟨-, _, -, rfl⟩
          rfl
  simp only [keyword?, Option.bind_eq_some_iff, hsupplied, List.find?_eq_some_iff_append,
    SuppliedWith, Bool.or_eq_true, beq_iff_eq, Bool.not_eq_true', Bool.or_eq_false_iff,
    beq_eq_false_iff_ne]
  constructor
  · rintro ⟨name, hname, hv, key, hkey, before, after, hkwargs, hbefore⟩
    exact ⟨name, before, key, after, hname, hkwargs, hkey, hbefore, hv⟩
  · rintro ⟨name, before, key, after, hname, hkwargs, hkey, hbefore, hv⟩
    exact ⟨name, hname, hv, key, hkey, before, after, hkwargs, hbefore⟩

/-! ## Entries that bind, and entries that do not -/

/-- An entry takes the argument that the call has for it, or has none and needs none. -/
def StructDef.Meets (schema : Schema) (d : StructDef) (kwargs : List (String × Value))
    (index : Nat) (spec : FieldSpec) : Prop :=
  (∃ v x, spec.keyword? kwargs = some v ∧ d.Takes schema index v x) ∨
    spec.keyword? kwargs = none ∧ (spec.name = none ∨ spec.optional = true)

/-- Why an entry stops the binding, and the error that says so. -/
inductive StructDef.KeywordFault (schema : Schema) (d : StructDef) (kwargs : List (String × Value))
    (index : Nat) (spec : FieldSpec) : ConvertError → Prop
  | missing {name : String} (hname : spec.name = some name) (hnone : spec.keyword? kwargs = none)
      (hneeded : spec.optional = false) : KeywordFault schema d kwargs index spec
        (.missingRequired name)
  | refused {name : String} {v : Value} {cause : ConvertError} (hname : spec.name = some name)
      (hv : spec.keyword? kwargs = some v) (hrefuses : d.Refuses schema index v cause) :
      KeywordFault schema d kwargs index spec (.within (.keyword name) cause)

/-- An entry that stops the binding does not bind. -/
theorem StructDef.KeywordFault.not_meets (h : d.KeywordFault schema kwargs index spec e) :
    ¬ d.Meets schema kwargs index spec := by
  rintro (⟨v, x, hv, hx⟩ | ⟨hnone, hfree⟩)
  · cases h with
    | missing _ hnone _ => cases hv.symm.trans hnone
    | refused _ hv' hrefuses =>
      obtain rfl := Option.some.inj (hv.symm.trans hv')
      exact hx.not_refuses hrefuses
  · cases h with
    | missing hname _ hneeded => simp [hname, hneeded] at hfree
    | refused _ hv _ => cases hnone.symm.trans hv

/-- A run of entries fails at its first entry, with nothing stored, or else after it. -/
theorem bindKeywordsFrom_cons_eq_error
    (h : bindKeywordsFrom schema d kwargs (spec :: specs) index stored = ⟨.error e, stored'⟩) :
    (d.KeywordFault schema kwargs index spec e ∧ stored' = stored) ∨
      (spec.keyword? kwargs = none ∧ (spec.name = none ∨ spec.optional = true) ∧
        bindKeywordsFrom schema d kwargs specs (index + 1) stored = ⟨.error e, stored'⟩) ∨
      ∃ v x, spec.keyword? kwargs = some v ∧ d.Takes schema index v x ∧
        bindKeywordsFrom schema d kwargs specs (index + 1) (stored.set index x) =
          ⟨.error e, stored'⟩ := by
  rw [bindKeywordsFrom] at h
  cases hname : spec.name with
  | none =>
    rw [hname] at h
    exact .inr (.inl ⟨by simp [FieldSpec.keyword?, hname], .inl rfl, h⟩)
  | some name =>
    have hkeyword : spec.keyword? kwargs = spec.supplied? name kwargs := by
      rw [FieldSpec.keyword?, hname, Option.bind_some]
    simp only [hname, ← hkeyword] at h
    cases hv : spec.keyword? kwargs with
    | none =>
      cases hoptional : spec.optional with
      | true =>
        simp only [hv, hoptional, ↓reduceIte] at h
        exact .inr (.inl ⟨rfl, .inr rfl, h⟩)
      | false =>
        simp only [hv, hoptional, Bool.false_eq_true, ↓reduceIte, Bound.mk.injEq,
          Except.error.injEq] at h
        obtain ⟨rfl, rfl⟩ := h
        exact .inl ⟨.missing hname hv hoptional, rfl⟩
    | some v =>
      simp only [hv] at h
      cases hstore : d.store schema (.keyword name) index v stored with
      | error e' =>
        simp only [hstore, Bound.mk.injEq, Except.error.injEq] at h
        obtain ⟨rfl, rfl⟩ := h
        obtain ⟨cause, hrefuses, rfl⟩ := StructDef.store_eq_error.mp hstore
        exact .inl ⟨.refused hname hv hrefuses, rfl⟩
      | ok s =>
        obtain ⟨x, hx, rfl⟩ := StructDef.store_eq_ok.mp hstore
        simp only [hstore] at h
        exact .inr (.inr ⟨v, x, rfl, hx, h⟩)

/-! ## Runs of entries -/

/-- Where a run is bound, each of its entries binds. -/
theorem meets_of_bound
    (h : bindKeywordsFrom schema d kwargs specs index stored = ⟨.ok (), stored'⟩) :
    ∀ (i : Nat) spec, specs[i]? = some spec → d.Meets schema kwargs (index + i) spec := by
  induction specs generalizing index stored with
  | nil => simp
  | cons first rest ih =>
    have hstep : d.Meets schema kwargs index first ∧ ∃ s,
        bindKeywordsFrom schema d kwargs rest (index + 1) s = ⟨.ok (), stored'⟩ := by
      rcases bindKeywordsFrom_cons_eq_ok.mp h with ⟨hnone, hfree, hrest⟩ | ⟨v, x, hv, hx, hrest⟩
      · exact ⟨.inr ⟨hnone, hfree⟩, _, hrest⟩
      · exact ⟨.inl ⟨v, x, hv, hx⟩, _, hrest⟩
    obtain ⟨hfirst, s, hrest⟩ := hstep
    intro i spec hspec
    cases i with
    | zero =>
      obtain rfl := Option.some.inj hspec
      exact hfirst
    | succ i =>
      have hindex : index + (i + 1) = index + 1 + i := by omega
      rw [hindex]
      exact ih hrest i spec hspec

/-- A run that fails does so at the first entry that does not bind. The entries before it have
filled their fields, and nothing else has changed. -/
theorem keywordFault_of_bindKeywordsFrom (hstored : stored.length = d.slots.length)
    (h : bindKeywordsFrom schema d kwargs specs index stored = ⟨.error e, stored'⟩) :
    ∃ (j : Nat) (spec : FieldSpec), specs[j]? = some spec ∧
      (∀ (i : Nat) other, i < j → specs[i]? = some other →
        d.Meets schema kwargs (index + i) other) ∧
      d.KeywordFault schema kwargs (index + j) spec e ∧
      d.KeywordsFilled schema kwargs (specs.take j) index stored stored' := by
  induction specs generalizing index stored with
  | nil => simp [bindKeywordsFrom] at h
  | cons first rest ih =>
    have hindex : ∀ i, index + (i + 1) = index + 1 + i := fun i => by omega
    -- what the first entry adds to a failure among the entries after it
    have hlater : ∀ {s : Storage}, s.length = d.slots.length →
        bindKeywordsFrom schema d kwargs rest (index + 1) s = ⟨.error e, stored'⟩ →
        d.Meets schema kwargs index first →
        (∀ specs, d.KeywordsFilled schema kwargs specs (index + 1) s stored' →
          d.KeywordsFilled schema kwargs (first :: specs) index stored stored') →
        ∃ (j : Nat) (spec : FieldSpec), (first :: rest)[j]? = some spec ∧
          (∀ (i : Nat) other, i < j → (first :: rest)[i]? = some other →
            d.Meets schema kwargs (index + i) other) ∧
          d.KeywordFault schema kwargs (index + j) spec e ∧
          d.KeywordsFilled schema kwargs ((first :: rest).take j) index stored stored' := by
      intro s hs hrest hfirst hfill
      obtain ⟨j, spec, hspec, hbefore, hfault, hfilled⟩ := ih hs hrest
      refine ⟨j + 1, spec, hspec, fun i other hi hother => ?_, hindex j ▸ hfault, hfill _ hfilled⟩
      cases i with
      | zero =>
        obtain rfl := Option.some.inj hother
        exact hfirst
      | succ i =>
        rw [hindex]
        exact hbefore i other (Nat.lt_of_succ_lt_succ hi) hother
    rcases bindKeywordsFrom_cons_eq_error h with
      ⟨hfault, rfl⟩ | ⟨hnone, hfree, hrest⟩ | ⟨v, x, hv, hx, hrest⟩
    · exact ⟨0, first, rfl, fun i _ hi => absurd hi (Nat.not_lt_zero i), hfault,
        rfl, fun i spec v hspec => by simp at hspec, fun _ _ => rfl⟩
    · exact hlater hstored hrest (.inr ⟨hnone, hfree⟩) fun _ hfilled => hfilled.skip hnone
    · exact hlater (List.length_set.trans hstored) hrest (.inl ⟨v, x, hv, hx⟩) fun _ hfilled =>
        hfilled.store hstored hv hx

/-! ## Keywords that no entry looks for -/

/-- Whether a keyword is the name of an entry, or the identifier of one. -/
def StructDef.Knows (d : StructDef) (key : String) : Bool :=
  d.table.any fun spec => spec.name == some key || spec.ident == key

/-- A search does not miss what it could not have found. -/
theorem find?_filter_of_imp {α : Type} {p q : α → Bool} {l : List α}
    (h : ∀ a, p a = true → q a = true) : (l.filter q).find? p = l.find? p := by
  have htest : (fun a => decide (q a = true ∧ p a = true)) = p := by
    funext a
    by_cases hp : p a = true
    · simp [hp, h a hp]
    · simp [hp]
  rw [List.find?_filter, htest]

/-- An entry finds its argument among the keywords that the table knows. -/
theorem FieldSpec.keyword?_filter_knows (hspec : spec ∈ d.table) :
    spec.keyword? (kwargs.filter fun kw => d.Knows kw.1) = spec.keyword? kwargs := by
  rw [keyword?, keyword?]
  cases hname : spec.name with
  | none => rfl
  | some name =>
    have hfind := find?_filter_of_imp (l := kwargs) (q := fun kw => d.Knows kw.1)
      (p := fun kw => kw.1 == name || kw.1 == spec.ident) fun kw hkey => by
        refine List.any_eq_true.mpr ⟨spec, hspec, ?_⟩
        rcases (Bool.or_eq_true _ _).mp hkey with hkey | hkey
        · simp [hname, beq_iff_eq.mp hkey]
        · simp [beq_iff_eq.mp hkey]
    rw [Option.bind_some, Option.bind_some, supplied?, supplied?, hfind]

/-- Calls that agree on the keywords that the table knows are bound alike. -/
theorem bindKeywords_eq_of_knows {kwargs' : List (String × Value)}
    (h : (kwargs'.filter fun kw => d.Knows kw.1) = kwargs.filter fun kw => d.Knows kw.1) :
    bindKeywords schema d kwargs' stored = bindKeywords schema d kwargs stored :=
  bindKeywordsFrom_congr fun _ hspec => by
    rw [← FieldSpec.keyword?_filter_knows hspec, h, FieldSpec.keyword?_filter_knows hspec]

/-! ## Whole calls -/

/-- A call that is bound fills the fields of the table. -/
theorem keywordsFilled_of_bindKeywords (hstored : stored.length = d.slots.length)
    (h : (bindKeywords schema d kwargs stored).outcome = .ok ()) :
    d.KeywordsFilled schema kwargs d.table 0 stored (bindKeywords schema d kwargs stored).stored :=
  keywordsFilled_of_bound hstored (h ▸ rfl)

/-- A call that fails does so at the first entry that does not bind. -/
theorem keywordFault_of_bindKeywords (hstored : stored.length = d.slots.length)
    (h : (bindKeywords schema d kwargs stored).outcome = .error e) :
    ∃ (j : Nat) (spec : FieldSpec), d.table[j]? = some spec ∧
      (∀ (i : Nat) (other : FieldSpec), i < j → d.table[i]? = some other →
        d.Meets schema kwargs i other) ∧
      d.KeywordFault schema kwargs j spec e ∧
      d.KeywordsFilled schema kwargs (d.table.take j) 0 stored
        (bindKeywords schema d kwargs stored).stored := by
  have hrun : bindKeywordsFrom schema d kwargs d.table 0 stored =
      ⟨.error e, (bindKeywords schema d kwargs stored).stored⟩ := h ▸ rfl
  simpa only [Nat.zero_add] using keywordFault_of_bindKeywordsFrom hstored hrun

/-- A call is bound exactly when each entry of the table binds. -/
theorem bindKeywords_eq_ok (hstored : stored.length = d.slots.length) :
    (bindKeywords schema d kwargs stored).outcome = .ok () ↔
      ∀ (i : Nat) (spec : FieldSpec), d.table[i]? = some spec → d.Meets schema kwargs i spec := by
  constructor
  · intro h i spec hspec
    have hrun : bindKeywordsFrom schema d kwargs d.table 0 stored =
        ⟨.ok (), (bindKeywords schema d kwargs stored).stored⟩ := h ▸ rfl
    simpa only [Nat.zero_add] using meets_of_bound hrun i spec hspec
  · intro h
    rcases ok_or_error (bindKeywords schema d kwargs stored).outcome with ⟨⟨⟩, hok⟩ | ⟨e, he⟩
    · exact hok
    · obtain ⟨j, spec, hspec, -, hfault, -⟩ := keywordFault_of_bindKeywords hstored he
      exact absurd (h j spec hspec) hfault.not_meets

/-- **How a call with keywords alone ends.** The argument of an entry is what the first keyword that
is its name or its identifier carries, if that is not null. The call is bound exactly when every
entry with a name takes its argument, or has none and is optional; then each field holds what its
argument decodes to, or what it held before. Otherwise the error is that of the first entry in the
table that does neither, where the fields of the entries before it are filled, and all else is as
before. Keywords that are no name and no identifier of any entry make no difference. -/
theorem bindKeywords_exact (schema : Schema) (d : StructDef) (kwargs : List (String × Value))
    (stored : Storage) (hstored : stored.length = d.slots.length) :
    (∀ (spec : FieldSpec) (v : Value),
        spec.keyword? kwargs = some v ↔ spec.SuppliedWith kwargs v) ∧
      ((bindKeywords schema d kwargs stored).outcome = .ok () ↔
        ∀ (i : Nat) (spec : FieldSpec), d.table[i]? = some spec → d.Meets schema kwargs i spec) ∧
      ((bindKeywords schema d kwargs stored).outcome = .ok () →
        d.KeywordsFilled schema kwargs d.table 0 stored
          (bindKeywords schema d kwargs stored).stored) ∧
      (∀ e, (bindKeywords schema d kwargs stored).outcome = .error e →
        ∃ (j : Nat) (spec : FieldSpec), d.table[j]? = some spec ∧
          (∀ (i : Nat) (other : FieldSpec), i < j → d.table[i]? = some other →
            d.Meets schema kwargs i other) ∧
          d.KeywordFault schema kwargs j spec e ∧
          d.KeywordsFilled schema kwargs (d.table.take j) 0 stored
            (bindKeywords schema d kwargs stored).stored) ∧
      ∀ kwargs' : List (String × Value),
        (kwargs'.filter fun kw => d.Knows kw.1) = (kwargs.filter fun kw => d.Knows kw.1) →
          bindKeywords schema d kwargs' stored = bindKeywords schema d kwargs stored := by
  refine ⟨fun spec v => FieldSpec.keyword?_eq_some, bindKeywords_eq_ok hstored,
    keywordsFilled_of_bindKeywords hstored, fun e he => ?_, fun kwargs' h => ?_⟩
  · exact keywordFault_of_bindKeywords hstored he
  · exact bindKeywords_eq_of_knows h

/-- A cast calls its first field by an identifier that is a reserved word. The second field is
offered two numbers: the first one is too large, so that the call fails there, and nobody looks at
the other. The first field has been written by then. -/
theorem bindKeywords_exact_cast :
    let kind := (FieldSpec.ofIdentifier "r#type").withName "kind"
    let count := ((FieldSpec.ofIdentifier "count").withName "count").withOptional true
    let d : StructDef := ⟨⟨"Cast", [kind, count], []⟩,
      [⟨.string, .string ""⟩, ⟨.int .byte, .int .byte (.wrap _ 7)⟩], []⟩
    let kwargs :=
      [("type", Value.text "x"), ("else", .null), ("count", .int 300), ("count", .int 1)]
    let stored := d.initialStored
    let e := ConvertError.within (.keyword "count") (.outOfRange "300" "u8")
    let after := [HostValue.string "x", .int .byte (.wrap _ 7)]
    stored.length = d.slots.length ∧ bindKeywords .empty d kwargs stored = ⟨.error e, after⟩ ∧
      kind.SuppliedWith kwargs (.text "x") ∧
      (∃ (j : Nat) (spec : FieldSpec), d.table[j]? = some spec ∧
        (∀ (i : Nat) (other : FieldSpec), i < j → d.table[i]? = some other →
          d.Meets .empty kwargs i other) ∧
        d.KeywordFault .empty kwargs j spec e ∧
        d.KeywordsFilled .empty kwargs (d.table.take j) 0 stored after) ∧
      bindKeywords .empty d [("type", .text "x"), ("count", .int 300), ("count", .int 1)] stored =
        ⟨.error e, after⟩ := by
  intro kind count d kwargs stored e after
  have h := bindKeywords_exact .empty d kwargs stored rfl
  have hrun : bindKeywords .empty d kwargs stored = ⟨.error e, after⟩ := rfl
  rw [hrun] at h
  obtain ⟨hsupplied, -, -, hfails, hknown⟩ := h
  exact ⟨rfl, hrun, (hsupplied kind (.text "x")).mp rfl, hfails e rfl, hknown _ rfl⟩

end ScriptBridge
