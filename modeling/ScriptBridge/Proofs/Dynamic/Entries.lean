import ScriptBridge.Proofs.Decoding.Faithful
import ScriptBridge.Proofs.DynamicRoundTrip

/-!
# Dicts of any depth as dynamic maps

A dynamic map is built by storing one entry after the other, so that an entry is lost without a word
when its key is taken for an earlier one. Keys are compared once as script values and once as
dynamic values, by two equalities that have little in common: tuples are lists by then, and integers
of two kinds. They agree all the same, NaNs and zeros inside of tuples included, so that nothing is
lost at any place of the value.

- `Value.WellFormed.dynamic_partAt?`: what stands at a place of the dynamic value was decoded from
  what stands at that place of the value.
- `decode_dynamic_entries`: keys are the same exactly when what they are decoded to is, and dicts
  keep their entries.
-/

namespace ScriptBridge

variable {v : Value} {d : Dynamic}

/-- Place by place, a well-formed value is decoded to the dynamic value. -/
theorem Value.WellFormed.dynamic_partAt? (hv : v.WellFormed) (hd : v.dynamic = .ok d)
    (path : List Nat) :
    Option.Rel (fun u e => u.WellFormed ∧ u.dynamic = .ok e) (partAt? Value.members path v)
      (partAt? Dynamic.members path d) :=
  partAt?_rel (fun _ _ h => forall₂_imp_of_mem (h.1.dynamic_members h.2)
    fun u hu _ _ he => ⟨h.1.of_mem_members u hu, he⟩) ⟨hv, hd⟩ path

/-- A dict at a place of the value is a map at that place, entry by entry. -/
theorem Value.WellFormed.dynamic_dictAt (hv : v.WellFormed) (hd : v.dynamic = .ok d)
    {path : List Nat} {pairs : List (Value × Value)}
    (hpath : partAt? Value.members path v = some (.dict pairs)) :
    ∃ entries, partAt? Dynamic.members path d = some (.map entries) ∧
      List.Forall₂ DecodesEntry pairs entries := by
  have hrel := hv.dynamic_partAt? hd path
  rw [hpath] at hrel
  generalize partAt? Dynamic.members path d = e at hrel
  cases hrel with
  | some h =>
    obtain ⟨entries, hentries, rfl⟩ := h.1.dynamic_dict h.2
    exact ⟨entries, rfl, hentries⟩

/-- **Decoding to dynamic values merges nothing.** Two hashable values are the same exactly when what
they are decoded to is the same; so a dict anywhere in a well-formed value is a map at the same place
of what the value is decoded to, with as many entries, in the same order, keys and values decoded
one by one. -/
theorem decode_dynamic_entries (schema : Schema) :
    (∀ (a b : Value) (d e : Dynamic), a.hashable = true → b.hashable = true →
      decode schema a .dynamic = .ok (.dynamic d) → decode schema b .dynamic = .ok (.dynamic e) →
        (a.same b = true ↔ d.same e = true)) ∧
    ∀ (v : Value) (d : Dynamic), v.WellFormed → decode schema v .dynamic = .ok (.dynamic d) →
      ∀ (path : List Nat) (pairs : List (Value × Value)),
        partAt? Value.members path v = some (.dict pairs) →
          ∃ entries, partAt? Dynamic.members path d = some (.map entries) ∧
            entries.length = pairs.length ∧
            List.Forall₂ (fun p e => decode schema p.1 .dynamic = .ok (.dynamic e.1) ∧
              decode schema p.2 .dynamic = .ok (.dynamic e.2)) pairs entries := by
  simp only [decode_dynamic_eq_dynamic]
  constructor
  · intro a b d e ha hb hd he
    rw [Value.dynamic_same ha hb hd he]
  · intro v d hv hd path pairs hpath
    obtain ⟨entries, hmap, hentries⟩ := hv.dynamic_dictAt hd hpath
    exact ⟨entries, hmap, hentries.length_eq.symm, hentries⟩

/-- The two zeros in tuples are one key before decoding and after it. A dict below such a tuple keeps
its entries under true, the integer one and the float one. -/
theorem decode_dynamic_entries_nested :
    let plus : Value := .tuple [.float (.zero .double)]
    let minus : Value := .tuple [.float (.ofBits .double 0x8000000000000000)]
    let one : Value := .float (.ofBits .double 0x3FF0000000000000)
    let ones : List (Value × Value) := [(.bool true, plus), (.int 1, minus), (one, plus)]
    let v : Value := .list [.null, .dict [(plus, .dict ones)]]
    (∃ d e, decode .empty plus .dynamic = .ok (.dynamic d) ∧
      decode .empty minus .dynamic = .ok (.dynamic e) ∧ d.same e = true) ∧
    ∃ d entries, decode .empty v .dynamic = .ok (.dynamic d) ∧
      partAt? Dynamic.members [1, 1] d = some (.map entries) ∧ entries.length = 3 := by
  intro plus minus one ones v
  obtain ⟨hkeys, hdicts⟩ := decode_dynamic_entries .empty
  constructor
  · exact ⟨_, _, rfl, rfl, (hkeys plus minus _ _ rfl rfl rfl rfl).mp rfl⟩
  · have hzero (x : Binary64) : (Value.tuple [.float x]).WellFormed :=
      .tuple (List.forall_mem_singleton.mpr (.float x))
    have hones : (Value.dict ones).WellFormed := by
      refine .dict ?_ ?_ ?_ ?_
      · simp [ones, one, Value.WellFormed.bool, Value.WellFormed.int, Value.WellFormed.float]
      · simp [ones, plus, minus, hzero]
      · simp [ones, one, Value.hashable]
      · simp [ones, one, Assoc.KeysDiffer, Value.same]
    have hdict : (Value.dict [(plus, .dict ones)]).WellFormed := by
      refine .dict ?_ ?_ ?_ (List.pairwise_singleton _ _)
      · exact List.forall_mem_singleton.mpr (hzero _)
      · exact List.forall_mem_singleton.mpr hones
      · exact List.forall_mem_singleton.mpr rfl
    have hv : v.WellFormed :=
      .list (List.forall_mem_cons.mpr ⟨.null, List.forall_mem_singleton.mpr hdict⟩)
    obtain ⟨entries, hentries, hlength, -⟩ := hdicts v _ hv rfl [1, 1] ones rfl
    exact ⟨_, entries, rfl, hentries, hlength⟩

end ScriptBridge
