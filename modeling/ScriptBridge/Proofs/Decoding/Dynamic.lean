import ScriptBridge.Decoding.Dynamic
import ScriptBridge.Proofs.Encoding.Scalar
import ScriptBridge.Proofs.Host.Tree

/-!
# Dynamic values and what they were decoded from

The counterpart of the lemmas on the typed decoder, for the decoder that lets the value choose the
shape.

- `Value.dynamicItems_eq_ok`, `Value.dynamicEntries_eq_ok`: lists of members.
- `Value.dynamic_eq_scalar`: a dynamic value without members holds the value that it was decoded
  from.
- `Dynamic.scalars_of_same`: dynamic values that are the same hold script values that are the same,
  or both have members.
- `Value.dynamic_same`: keys are the same exactly when their dynamic forms are, tuples included.
-/

namespace ScriptBridge

namespace Dynamic

theorem eachSame_iff {ds es : List Dynamic} :
    eachSame ds es = true ↔ List.Forall₂ (fun d e => d.same e = true) ds es :=
  each_eq_true_iff eachSame rfl (fun _ _ => rfl) (fun _ _ => rfl) fun _ _ _ _ => by
    rw [eachSame, Bool.and_eq_true]

/-- Of dynamic values that are the same either both have members, or both stand for script values
that are the same. -/
theorem scalars_of_same {d e : Dynamic} (h : same d e = true) :
    Option.Rel (fun v w => v.same w = true) d.tree.scalar? e.tree.scalar? := by
  cases d <;> cases e <;> simp [same] at h
  case list.list => exact .none
  case map.map => exact .none
  all_goals exact .some (by simp [Value.same, h])

end Dynamic

namespace Value

/-- An integer is signed if it fits there, and unsigned if only that fits. -/
theorem dynamicInt_eq_ok {n : Int} {d : Dynamic} :
    dynamicInt n = .ok d ↔ (∃ h : IntType.int64.InRange n, d = .int ⟨n, h⟩) ∨
      ¬ IntType.int64.InRange n ∧ ∃ h : IntType.uint64.InRange n, d = .uint ⟨n, h⟩ := by
  rw [dynamicInt, Fixed.ofInt?, Fixed.ofInt?]
  by_cases hsigned : IntType.int64.InRange n
  · simp [hsigned, eq_comm]
  · by_cases hunsigned : IntType.uint64.InRange n
    · simp [hsigned, hunsigned, eq_comm]
    · simp [hsigned, hunsigned]

/-- A list of items has a dynamic form when each item has. -/
theorem dynamicItems_eq_ok {container : Kind} {vs : List Value} {index : Nat} {ds : List Dynamic} :
    dynamicItems container vs index = .ok ds ↔
      List.Forall₂ (fun v d => v.dynamic = .ok d) vs ds :=
  items_eq_ok (dynamicItems container) (fun _ => by rw [dynamicItems]) fun _ _ _ => by
    rw [dynamicItems]

/-- Entries have a dynamic form when each key and each value has. -/
theorem dynamicEntries_eq_ok {pairs : List (Value × Value)} {entries : List (Dynamic × Dynamic)} :
    dynamicEntries pairs = .ok entries ↔
      List.Forall₂ (fun p e => p.1.dynamic = .ok e.1 ∧ p.2.dynamic = .ok e.2) pairs entries :=
  entries_eq_ok dynamicEntries (by rw [dynamicEntries]) (fun _ _ _ => by rw [dynamicEntries])
    fun _ _ _ _ => by simp only [ConvertError.locate_eq_ok]

/-- A dynamic value without members holds the value that it was decoded from. -/
theorem dynamic_eq_scalar {v s : Value} {d : Dynamic} (h : v.dynamic = .ok d)
    (hs : d.tree.scalar? = some s) : s = v := by
  cases v <;> simp only [dynamic, Except.ok.injEq, bind_eq_ok, pure_eq_ok, reduceCtorEq] at h
  case int n =>
    rcases dynamicInt_eq_ok.mp h with ⟨hn, rfl⟩ | ⟨-, hn, rfl⟩
    · exact (Option.some.inj hs).symm
    · exact (Option.some.inj hs).symm
  case list | tuple | set =>
    obtain ⟨ds, -, rfl⟩ := h
    cases hs
  case dict =>
    obtain ⟨entries, -, rfl⟩ := h
    cases hs
  all_goals
    subst h
    exact (Option.some.inj hs).symm

/-! ## Keys -/

variable {a b v : Value} {d e : Dynamic}

/-- A key with a dynamic form is a tuple, which becomes a list, or else it stands for itself. -/
theorem dynamic_of_hashable (hhash : v.hashable = true) (h : v.dynamic = .ok d) :
    (∃ items ds, v = tuple items ∧ d = .list ds ∧
        List.Forall₂ (fun v d => v.dynamic = .ok d) items ds) ∨
      d.tree.scalar? = some v := by
  cases v with
  | list | dict | set => cases hhash
  | callable | record => cases h
  | tuple items =>
    obtain ⟨ds, hds, hd⟩ := bind_eq_ok.mp h
    exact .inl ⟨items, ds, rfl, (pure_eq_ok.mp hd).symm, dynamicItems_eq_ok.mp hds⟩
  | int n =>
    rcases dynamicInt_eq_ok.mp h with ⟨hn, rfl⟩ | ⟨-, hn, rfl⟩
    · exact .inr rfl
    · exact .inr rfl
  | _ =>
    cases h
    exact .inr rfl

/-- Values without members are the same exactly when their dynamic forms are. One integer has one
form only, so that the two kinds of integers cannot meet. -/
theorem dynamic_same_of_scalar (hd : a.dynamic = .ok d) (he : b.dynamic = .ok e)
    (ha : d.tree.scalar? = some a) (hb : e.tree.scalar? = some b) : d.same e = a.same b := by
  have hforms : d ≠ e → a ≠ b := by
    rintro hne rfl
    exact hne (Except.ok.inj (hd.symm.trans he))
  cases d <;> cases ha <;> cases e <;> cases hb
  case int.refl.uint.refl =>
    simpa [Dynamic.same, same] using hforms (fun h => by cases h)
  case uint.refl.int.refl =>
    simpa [Dynamic.same, same] using hforms (fun h => by cases h)
  all_goals rfl

/-- Keys are the same exactly when their dynamic forms are. -/
theorem dynamic_same (ha : a.hashable = true) (hb : b.hashable = true) (hd : a.dynamic = .ok d)
    (he : b.dynamic = .ok e) : d.same e = a.same b := by
  induction a generalizing b d e with
  | tuple items ih =>
    obtain ⟨ds, hds, hd⟩ := bind_eq_ok.mp hd
    obtain rfl := pure_eq_ok.mp hd
    rcases dynamic_of_hashable hb he with ⟨items', es, rfl, rfl, hes⟩ | hscalar
    · rw [hashable, allHashable_iff] at ha hb
      rw [Dynamic.same, same, Bool.eq_iff_iff, Dynamic.eachSame_iff, eachSame_iff]
      refine (forall₂_congr (dynamicItems_eq_ok.mp hds) hes fun v hv w hw d e hd he => ?_).symm
      rw [ih v hv (ha v hv) (hb w hw) hd he]
    · cases e <;> cases hscalar <;> rfl
  | list | dict | set => cases ha
  | _ =>
    rcases dynamic_of_hashable ha hd with ⟨_, _, hv, -⟩ | hscalar
    · cases hv
    rcases dynamic_of_hashable hb he with ⟨items', es, rfl, rfl, -⟩ | hscalar'
    · cases d <;> cases hscalar <;> rfl
    · exact dynamic_same_of_scalar hd he hscalar hscalar'

end Value

end ScriptBridge
