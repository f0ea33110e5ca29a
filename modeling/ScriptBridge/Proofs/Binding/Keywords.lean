import ScriptBridge.Binding.Keywords
import ScriptBridge.Proofs.Binding.Arguments
import Mathlib.Data.List.Nodup

/-!
# What binding keyword arguments alone means

Here each entry looks for its argument, and accepts two keywords: its name and its identifier. A
keyword can so serve two entries, and an entry can be offered two keywords, of which the first one
in the call counts.

- `FieldSpec.keyword?`: the argument that a call has for an entry.
- `bindKeywordsFrom_cons_eq_ok`: what a successful call makes of one entry.
- `StructDef.KeywordsFilled`, `keywordsFilled_of_bound`: the fields after a successful call.
- `FieldSpec.CalledOnce`: an entry that is not offered two keywords. The argument for it is that of
  its name, if there is one (`FieldSpec.CalledOnce.keyword?_of_mem`), and does not depend on the
  order of the call (`FieldSpec.CalledOnce.keyword?_perm`).
- `bindKeywords_own`: where no entry is offered two keywords, every keyword reaches the field of its
  name, in any order.
-/

namespace ScriptBridge

variable {schema : Schema} {d : StructDef} {kwargs kwargs' : List (String × Value)}
  {spec : FieldSpec} {specs : List FieldSpec} {index : Nat} {stored stored' : Storage}

/-- The argument that a call has for an entry. Entries without a name have none. -/
def FieldSpec.keyword? (spec : FieldSpec) (kwargs : List (String × Value)) : Option Value :=
  spec.name.bind fun name => spec.supplied? name kwargs

/-! ## One entry, and a run of them -/

/-- A run of entries is bound when its first entry and the rest are. The first entry takes the
argument that the call has for it, or has none and needs none. -/
theorem bindKeywordsFrom_cons_eq_ok :
    bindKeywordsFrom schema d kwargs (spec :: specs) index stored = ⟨.ok (), stored'⟩ ↔
      (spec.keyword? kwargs = none ∧ (spec.name = none ∨ spec.optional = true) ∧
        bindKeywordsFrom schema d kwargs specs (index + 1) stored = ⟨.ok (), stored'⟩) ∨
      ∃ v x, spec.keyword? kwargs = some v ∧ d.Takes schema index v x ∧
        bindKeywordsFrom schema d kwargs specs (index + 1) (stored.set index x) =
          ⟨.ok (), stored'⟩ := by
  rw [bindKeywordsFrom, FieldSpec.keyword?]
  cases hname : spec.name with
  | none => simp
  | some name =>
    cases hsupplied : spec.supplied? name kwargs with
    | none =>
      by_cases hoptional : spec.optional = true
      · simp [hoptional, hsupplied]
      · simp [hoptional, hsupplied]
    | some v =>
      simp only [Option.bind_some, hsupplied, reduceCtorEq, false_and, false_or,
        Option.some.injEq]
      constructor
      · intro h
        cases hstore : d.store schema (.keyword name) index v stored with
        | error e => simp [hstore] at h
        | ok s =>
          obtain ⟨x, hx, rfl⟩ := StructDef.store_eq_ok.mp hstore
          rw [hstore] at h
          exact ⟨v, x, rfl, hx, h⟩
      · rintro ⟨_, x, rfl, hx, h⟩
        rw [StructDef.store_eq_ok.mpr ⟨x, hx, rfl⟩]
        exact h

/-- What a call with keywords alone leaves in the fields of a run of entries, the first of which has
an index. -/
structure StructDef.KeywordsFilled (schema : Schema) (d : StructDef)
    (kwargs : List (String × Value)) (specs : List FieldSpec) (index : Nat)
    (before after : Storage) : Prop where
  /-- There are as many fields as before. -/
  length : after.length = before.length
  /-- The field of an entry for which the call has an argument holds what that decodes to. -/
  supplied : ∀ (i : Nat) spec v, specs[i]? = some spec → spec.keyword? kwargs = some v →
    ∃ x, d.Takes schema (index + i) v x ∧ after[index + i]? = some x
  /-- Every other field, and what is no field of these entries, is as before. -/
  kept : ∀ j : Nat, (∀ (i : Nat) spec, specs[i]? = some spec → j = index + i →
    spec.keyword? kwargs = none) → after[j]? = before[j]?

namespace StructDef.KeywordsFilled

/-- An entry for which there is no argument leaves all to the entries after it. -/
theorem skip (hnone : spec.keyword? kwargs = none)
    (h : d.KeywordsFilled schema kwargs specs (index + 1) stored stored') :
    d.KeywordsFilled schema kwargs (spec :: specs) index stored stored' where
  length := h.length
  supplied i other v hother hv := by
    cases i with
    | zero =>
      obtain rfl : spec = other := Option.some.inj hother
      rw [hnone] at hv
      cases hv
    | succ i =>
      have hindex : index + (i + 1) = index + 1 + i := by omega
      rw [hindex]
      exact h.supplied i other v hother hv
  kept j hj := by
    refine h.kept j fun i other hother hij => ?_
    exact hj (i + 1) other hother (by omega)

/-- What an entry stores in its own field the entries after it leave there. -/
theorem store {v : Value} {x : HostValue} (hstored : stored.length = d.slots.length)
    (hv : spec.keyword? kwargs = some v) (hx : d.Takes schema index v x)
    (h : d.KeywordsFilled schema kwargs specs (index + 1) (stored.set index x) stored') :
    d.KeywordsFilled schema kwargs (spec :: specs) index stored stored' where
  length := h.length.trans List.length_set
  supplied i other u hother hu := by
    cases i with
    | zero =>
      obtain rfl : spec = other := Option.some.inj hother
      obtain rfl : v = u := Option.some.inj (hv.symm.trans hu)
      have hindex : index < stored.length := by
        obtain ⟨slot, hslot, -⟩ := hx
        exact hstored ▸ (List.getElem?_eq_some_iff.mp hslot).1
      refine ⟨x, hx, ?_⟩
      rw [Nat.add_zero, h.kept index fun i _ _ hij => by omega]
      exact List.getElem?_set_self hindex
    | succ i =>
      have hindex : index + (i + 1) = index + 1 + i := by omega
      rw [hindex]
      exact h.supplied i other u hother hu
  kept j hj := by
    have hne : index ≠ j := by
      rintro rfl
      have hnone := hj 0 spec rfl rfl
      rw [hv] at hnone
      cases hnone
    rw [h.kept j fun i other hother hij => hj (i + 1) other hother (by omega)]
    exact List.getElem?_set_ne hne

end StructDef.KeywordsFilled

/-- A successful run fills the fields of its entries. -/
theorem keywordsFilled_of_bound (hstored : stored.length = d.slots.length)
    (h : bindKeywordsFrom schema d kwargs specs index stored = ⟨.ok (), stored'⟩) :
    d.KeywordsFilled schema kwargs specs index stored stored' := by
  induction specs generalizing index stored with
  | nil =>
    obtain rfl : stored = stored' := by simpa [bindKeywordsFrom] using h
    exact ⟨rfl, fun i spec v hspec => by simp at hspec, fun _ _ => rfl⟩
  | cons first rest ih =>
    rcases bindKeywordsFrom_cons_eq_ok.mp h with ⟨hnone, -, hrest⟩ | ⟨v, x, hv, hx, hrest⟩
    · exact (ih hstored hrest).skip hnone
    · exact (ih (List.length_set.trans hstored) hrest).store hstored hv hx

/-- Calls that have the same arguments for the entries are bound alike, and fail alike. -/
theorem bindKeywordsFrom_congr
    (h : ∀ spec ∈ specs, spec.keyword? kwargs = spec.keyword? kwargs') :
    bindKeywordsFrom schema d kwargs specs index stored =
      bindKeywordsFrom schema d kwargs' specs index stored := by
  induction specs generalizing index stored with
  | nil => rfl
  | cons first rest ih =>
    obtain ⟨hfirst, hrest⟩ := List.forall_mem_cons.mp h
    rw [bindKeywordsFrom, bindKeywordsFrom]
    cases hname : first.name with
    | none => exact ih hrest
    | some name =>
      have hsupplied : first.supplied? name kwargs = first.supplied? name kwargs' := by
        simpa [FieldSpec.keyword?, hname] using hfirst
      simp only [hsupplied, ih hrest]

/-! ## The argument of an entry -/

/-- A call does not offer an entry two keywords: its name and another identifier. -/
def FieldSpec.CalledOnce (spec : FieldSpec) (kwargs : List (String × Value)) : Prop :=
  ∀ name, spec.name = some name → spec.ident ≠ name → name ∈ kwargs.map (·.1) →
    spec.ident ∉ kwargs.map (·.1)

namespace FieldSpec.CalledOnce

/-- Of keywords that differ an entry looks for one at most. -/
theorem unique {name : String} (h : spec.CalledOnce kwargs) (hkeys : (kwargs.map (·.1)).Nodup)
    (hname : spec.name = some name) :
    ∀ a ∈ kwargs, ∀ b ∈ kwargs, (a.1 == name || a.1 == spec.ident) = true →
      (b.1 == name || b.1 == spec.ident) = true → a = b := by
  intro a ha b hb hpa hpb
  have hka : a.1 ∈ kwargs.map (·.1) := List.mem_map_of_mem ha
  have hkb : b.1 ∈ kwargs.map (·.1) := List.mem_map_of_mem hb
  refine List.inj_on_of_nodup_map hkeys ha hb ?_
  simp only [Bool.or_eq_true, beq_iff_eq] at hpa hpb
  by_cases hident : spec.ident = name
  · rw [hident, or_self] at hpa hpb
    exact hpa.trans hpb.symm
  · have honce := h name hname hident
    rcases hpa with hpa | hpa <;> rcases hpb with hpb | hpb
    · exact hpa.trans hpb.symm
    · exact absurd (hpb ▸ hkb) (honce (hpa ▸ hka))
    · exact absurd (hpa ▸ hka) (honce (hpb ▸ hkb))
    · exact hpa.trans hpb.symm

/-- The keyword of its name is the argument of an entry. -/
theorem keyword?_of_mem {name : String} {v : Value} (h : spec.CalledOnce kwargs)
    (hkeys : (kwargs.map (·.1)).Nodup) (hname : spec.name = some name) (hmem : (name, v) ∈ kwargs)
    (hv : v ≠ .null) : spec.keyword? kwargs = some v := by
  have hfind : kwargs.find? (fun kw => kw.1 == name || kw.1 == spec.ident) = some (name, v) :=
    find?_eq_some_of_unique hmem (by simp) fun b hb hpb =>
      h.unique hkeys hname b hb (name, v) hmem hpb (by simp)
  have hnull : v.isNull = false := by
    cases v with
    | null => exact absurd rfl hv
    | _ => rfl
  rw [keyword?, hname, Option.bind_some, supplied?, hfind]
  simp [hnull]

/-- The argument of an entry is the same in every order of the call. -/
theorem keyword?_perm (h : spec.CalledOnce kwargs) (hkeys : (kwargs.map (·.1)).Nodup)
    (hperm : kwargs.Perm kwargs') : spec.keyword? kwargs = spec.keyword? kwargs' := by
  rw [keyword?, keyword?]
  cases hname : spec.name with
  | none => rfl
  | some name =>
    have hfind := find?_perm hperm (h.unique hkeys hname)
    rw [Option.bind_some, Option.bind_some, supplied?, supplied?, hfind]

end FieldSpec.CalledOnce

/-! ## Whole calls -/

/-- **Keywords reach their own fields.** Take a call whose keywords differ, and a table of which no
entry is offered both its name and another identifier. If the call is bound, then a field whose name
is among the keywords, with anything but null, holds what the value of that keyword decodes to. In
every order of the keywords the call ends in the same way, with the same in storage. -/
theorem bindKeywords_own (schema : Schema) (d : StructDef) (kwargs : List (String × Value))
    (stored : Storage) (hstored : stored.length = d.slots.length)
    (hkeys : (kwargs.map (·.1)).Nodup) (honce : ∀ spec ∈ d.table, spec.CalledOnce kwargs) :
    ((bindKeywords schema d kwargs stored).outcome = .ok () →
      ∀ (i : Nat) (spec : FieldSpec) (name : String) (v : Value), d.table[i]? = some spec →
        spec.name = some name → (name, v) ∈ kwargs → v ≠ .null →
          ∃ x, d.Takes schema i v x ∧ (bindKeywords schema d kwargs stored).stored[i]? = some x) ∧
      ∀ kwargs', kwargs.Perm kwargs' →
        bindKeywords schema d kwargs' stored = bindKeywords schema d kwargs stored := by
  constructor
  · intro hok i spec name v hspec hname hmem hv
    have hbound : bindKeywordsFrom schema d kwargs d.table 0 stored =
        ⟨.ok (), (bindKeywords schema d kwargs stored).stored⟩ := by
      rw [← hok]
      rfl
    have hkeyword := (honce spec (List.mem_of_getElem? hspec)).keyword?_of_mem hkeys hname hmem hv
    have hfilled := (keywordsFilled_of_bound hstored hbound).supplied i spec v hspec hkeyword
    rwa [Nat.zero_add] at hfilled
  · intro kwargs' hperm
    refine (bindKeywordsFrom_congr fun spec hspec => ?_).symm
    exact (honce spec hspec).keyword?_perm hkeys hperm

/-- A fetch has a time limit whose name is not its identifier. Called with the limit before the
address, both reach their fields. -/
theorem bindKeywords_own_fetch :
    let d : StructDef := ⟨⟨"Fetch", [(FieldSpec.ofIdentifier "url").withName "url",
      (FieldSpec.ofIdentifier "timeout_secs").withName "timeout"], []⟩,
      [⟨.string, .string ""⟩, ⟨.int .byte, .int .byte (.wrap _ 0)⟩], []⟩
    let kwargs := [("timeout", Value.int 30), ("url", Value.text "u")]
    let stored := d.initialStored
    stored.length = d.slots.length ∧ (kwargs.map (·.1)).Nodup ∧
      (∀ spec ∈ d.table, spec.CalledOnce kwargs) ∧
      (bindKeywords .empty d kwargs stored).outcome = .ok () ∧
      (∃ x, d.Takes .empty 1 (.int 30) x ∧
        (bindKeywords .empty d kwargs stored).stored[1]? = some x) ∧
      bindKeywords .empty d kwargs.reverse stored = bindKeywords .empty d kwargs stored := by
  intro d kwargs stored
  have hkeys : (kwargs.map (·.1)).Nodup := by decide
  have honce : ∀ spec ∈ d.table, spec.CalledOnce kwargs := by
    refine List.forall_mem_cons.mpr ⟨?_, List.forall_mem_singleton.mpr ?_⟩
    · intro name hname hident
      exact absurd (Option.some.inj hname) hident
    · intro name _ _ _
      decide
  have hown := bindKeywords_own .empty d kwargs stored rfl hkeys honce
  refine ⟨rfl, hkeys, honce, rfl, ?_, hown.2 _ (List.reverse_perm kwargs).symm⟩
  exact hown.1 rfl 1 _ "timeout" (.int 30) rfl rfl (by simp [kwargs]) (by simp)

/-- Where the names of two entries are the identifiers of each other, both look for the same two
keywords, and take the one that comes first. So one of the keywords reaches the field of the other,
and which one it is depends on the order. -/
theorem bindKeywords_own_swap :
    let d : StructDef := ⟨⟨"Swap", [(FieldSpec.ofIdentifier "a").withName "b",
      (FieldSpec.ofIdentifier "b").withName "a"], []⟩,
      [⟨.int .int64, .int .int64 (.wrap _ 0)⟩, ⟨.int .int64, .int .int64 (.wrap _ 0)⟩], []⟩
    let kwargs := [("a", Value.int 1), ("b", Value.int 2)]
    let number := fun n => HostValue.int .int64 (.wrap _ n)
    (d.table.map (·.ident)).Nodup ∧ (d.table.map (·.name)).Nodup ∧ (kwargs.map (·.1)).Nodup ∧
      (∀ kw ∈ kwargs, ∃ spec ∈ d.table, spec.name = some kw.1) ∧
      bindKeywords .empty d kwargs d.initialStored = ⟨.ok (), [number 1, number 1]⟩ ∧
      bindKeywords .empty d kwargs.reverse d.initialStored = ⟨.ok (), [number 2, number 2]⟩ ∧
      (d.table[0]?).bind (·.name) = some "b" ∧ ("b", .int 2) ∈ kwargs ∧
      ¬ ∃ x, d.Takes .empty 0 (.int 2) x ∧
        (bindKeywords .empty d kwargs d.initialStored).stored[0]? = some x := by
  intro d kwargs number
  refine ⟨by decide, by decide, by decide, ?_, rfl, rfl, rfl, by simp [kwargs], ?_⟩
  · -- the first keyword is the second entry's name, and the other way round
    exact List.forall_mem_cons.mpr ⟨⟨_, List.mem_of_getElem? (l := d.table) (i := 1) rfl, rfl⟩,
      List.forall_mem_singleton.mpr ⟨_, List.mem_of_getElem? (l := d.table) (i := 0) rfl, rfl⟩⟩
  · rintro ⟨x, ⟨slot, hslot, hx⟩, hheld⟩
    obtain rfl := Option.some.inj hslot
    obtain rfl : number 2 = x := Except.ok.inj hx
    have hheld : number 1 = number 2 := Option.some.inj hheld
    simp only [number, HostValue.int.injEq, heq_eq_eq, true_and] at hheld
    exact absurd hheld (by decide)

end ScriptBridge
