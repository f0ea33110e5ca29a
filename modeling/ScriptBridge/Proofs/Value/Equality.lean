import ScriptBridge.Proofs.Equivalence
import ScriptBridge.Proofs.Value.WellFormed

/-!
# Sameness is an equivalence

Sameness looks for the members of one container in the other and never the other way round. On
well-formed values that makes no difference: the containers have one size, and no member can be
found twice.

- `Value.same_iff_of_scalar`, `Value.list_same_iff`, `Value.tuple_same_iff`, `Value.dict_same_iff`,
  `Value.set_same_iff`, `Value.record_same_iff`: sameness as a relation on the parts of values.
- `Value.WellFormed.equivAt`: sameness is an equivalence at every well-formed value.
- `Value.equivOn`: so it is one among all of them.
- `Value.WellFormed.same_comm`: sameness of well-formed values is symmetric.
- `Value.WellFormed.hashable_eq_of_same`: values that are the same are both keys or neither is.
- `Value.keysDiffer_perm`: whether keys differ is no matter of their order.
-/

namespace ScriptBridge

namespace Value

/-! ## Values without members -/

/-- What a value without members is compared by. -/
def scalar? : Value → Option Value
  | null => some null
  | bool b => some (bool b)
  | int n => some (int n)
  | float x => some (float x.canonical)
  | text s => some (text s)
  | bytes bs => some (bytes bs)
  | callable c => some (callable c)
  | _ => none

theorem same_iff_of_scalar {a b s : Value} (ha : a.scalar? = some s) :
    same a b = true ↔ b.scalar? = some s := by
  cases a <;> cases ha <;> cases b <;> simp [same, scalar?, Binary.same]
  all_goals exact eq_comm

theorem same_iff_of_scalar_right {a b s : Value} (hb : b.scalar? = some s) :
    same a b = true ↔ a.scalar? = some s := by
  cases b <;> cases hb <;> cases a <;> simp [same, scalar?, Binary.same]

/-- Sameness as a relation. -/
def Same (a b : Value) : Prop := same a b = true

theorem equivAt_of_scalar {a s : Value} (ha : a.scalar? = some s) : EquivAt Same WellFormed a :=
  .of_key ha same_iff_of_scalar same_iff_of_scalar_right

/-! ## Containers -/

theorem list_same_iff {as bs : List Value} :
    same (list as) (list bs) = true ↔ List.Forall₂ Same as bs := by
  rw [same, eachSame_iff]
  rfl

theorem tuple_same_iff {as bs : List Value} :
    same (tuple as) (tuple bs) = true ↔ List.Forall₂ Same as bs := by
  rw [same, eachSame_iff]
  rfl

theorem dict_same_iff {as bs : List (Value × Value)} :
    same (dict as) (dict bs) = true ↔ SameMap same Same as bs := by
  rw [same, Bool.and_eq_true, beq_iff_eq, entriesWithin_iff]
  exact ⟨fun h => ⟨h.1, h.2⟩, fun h => ⟨h.length, h.found⟩⟩

theorem set_same_iff {as bs : List Value} :
    same (set as) (set bs) = true ↔ Covers Same as bs := by
  rw [same, Bool.and_eq_true, beq_iff_eq, itemsWithin_iff]
  exact ⟨fun h => ⟨h.1, h.2⟩, fun h => ⟨h.length, h.partner⟩⟩

theorem record_same_iff {t u : String} {as bs : List (String × Value)} :
    same (record t as) (record u bs) = true ↔ t = u ∧ SameMap (· == ·) Same as bs := by
  simp only [same, Bool.and_eq_true, beq_iff_eq, attrsWithin_iff]
  exact and_congr_right fun _ => ⟨fun h => ⟨h.1, h.2⟩, fun h => ⟨h.length, h.found⟩⟩

/-! ## Well-formed values -/

/-- Sameness of lists, of tuples, of sets, of dicts and of records is an equivalence where sameness
of their members is. -/
theorem equivAt_list {items : List Value} (h : ∀ v ∈ items, v.WellFormed)
    (ih : ∀ v ∈ items, EquivAt Same WellFormed v) : EquivAt Same WellFormed (list items) :=
  .of_iff list (.forall₂ ih) (.list h) (fun hv => by cases hv; assumption)
    (fun {y b} hb => by cases b <;> simp_all [Same, same]) list_same_iff

theorem equivAt_tuple {items : List Value} (h : ∀ v ∈ items, v.WellFormed)
    (ih : ∀ v ∈ items, EquivAt Same WellFormed v) : EquivAt Same WellFormed (tuple items) :=
  .of_iff tuple (.forall₂ ih) (.tuple h) (fun hv => by cases hv; assumption)
    (fun {y b} hb => by cases b <;> simp_all [Same, same]) tuple_same_iff

theorem separate_of_set {items : List Value} (h : (set items).WellFormed) :
    Separate Same WellFormed items := by
  cases h with
  | set h _ hdiffer => exact ⟨h, hdiffer.imp fun hne => by simpa [Same] using hne⟩

theorem equivAt_set {items : List Value} (h : (set items).WellFormed)
    (ih : ∀ v ∈ items, EquivAt Same WellFormed v) : EquivAt Same WellFormed (set items) :=
  .of_iff set (.covers ih (separate_of_set h)) h separate_of_set
    (fun {y b} hb => by cases b <;> simp_all [Same, same]) set_same_iff

theorem soundMap_of_dict {entries : List (Value × Value)} (h : (dict entries).WellFormed) :
    SoundMap same WellFormed WellFormed entries := by
  cases h with
  | dict hkeys hvalues _ hdiffer => exact ⟨fun e he => ⟨hkeys e he, hvalues e he⟩, hdiffer⟩

theorem soundMap_of_record {typeName : String} {attrs : List (String × Value)}
    (h : (record typeName attrs).WellFormed) :
    SoundMap (· == ·) (fun _ => True) WellFormed attrs := by
  cases h with
  | record h _ hdiffer =>
    exact ⟨fun a ha => ⟨trivial, h a ha⟩, Assoc.keysDiffer_iff_nodup.mpr hdiffer⟩

theorem equivAt_dict {entries : List (Value × Value)} (h : (dict entries).WellFormed)
    (ih : ∀ e ∈ entries, EquivAt Same WellFormed e.1 ∧ EquivAt Same WellFormed e.2) :
    EquivAt Same WellFormed (dict entries) :=
  .of_iff dict
    (.maps (fun e he => (ih e he).1) (fun e he => (ih e he).2) (soundMap_of_dict h)) h
    soundMap_of_dict (fun {y b} hb => by cases b <;> simp_all [Same, same]) dict_same_iff

theorem equivAt_record {typeName : String} {attrs : List (String × Value)}
    (h : (record typeName attrs).WellFormed) (ih : ∀ a ∈ attrs, EquivAt Same WellFormed a.2) :
    EquivAt Same WellFormed (record typeName attrs) := by
  have hmaps := EquivAt.maps (fun _ _ => EquivOn.beq.equivAt trivial) ih (soundMap_of_record h)
  have hparts : EquivAt (fun p q : String × List (String × Value) =>
      p.1 = q.1 ∧ SameMap (· == ·) Same p.2 q.2)
      (fun p => SoundMap (· == ·) (fun _ => True) WellFormed p.2) (typeName, attrs) := by
    refine ⟨fun hb => and_congr eq_comm (hmaps.symm hb), fun hb hc hab hbc => ?_,
      fun hb hc hba hac => ?_⟩
    · exact ⟨hab.1.trans hbc.1, hmaps.first hb hc hab.2 hbc.2⟩
    · exact ⟨hba.1.trans hac.1, hmaps.between hb hc hba.2 hac.2⟩
  exact .of_iff (fun p : String × List (String × Value) => record p.1 p.2) hparts h
    soundMap_of_record (fun {y b} hb => by cases b <;> simp_all [Same, same])
    record_same_iff

/-- Sameness is an equivalence at every well-formed value. -/
theorem WellFormed.equivAt {v : Value} (h : v.WellFormed) : EquivAt Same WellFormed v := by
  induction v with
  | list items ih =>
    cases h with
    | list h => exact equivAt_list h fun v hv => ih v hv (h v hv)
  | tuple items ih =>
    cases h with
    | tuple h => exact equivAt_tuple h fun v hv => ih v hv (h v hv)
  | dict entries ih =>
    have hgood := (soundMap_of_dict h).1
    exact equivAt_dict h fun e he => ⟨(ih e he).1 (hgood e he).1, (ih e he).2 (hgood e he).2⟩
  | set items ih => exact equivAt_set h fun v hv => ih v hv ((separate_of_set h).1 v hv)
  | record typeName attrs ih =>
    exact equivAt_record h fun a ha => ih a ha ((soundMap_of_record h).1 a ha).2
  | _ => exact equivAt_of_scalar rfl

/-- Among well-formed values sameness is an equivalence. -/
theorem equivOn : EquivOn same WellFormed := .of_equivAt WellFormed.same_self WellFormed.equivAt

/-- Sameness of well-formed values is symmetric. -/
theorem WellFormed.same_comm {v w : Value} (hv : v.WellFormed) (hw : w.WellFormed) :
    same v w = same w v :=
  equivOn.comm hv hw

/-! ## Hashability -/

/-- What is the same as a hashable value has nothing in it that may change, since each member is the
same as one that cannot. -/
theorem hashable_of_same {v w : Value} (h : same v w = true) (hw : w.hashable = true) :
    v.hashable = true := by
  induction v generalizing w with
  | tuple items ih =>
    cases w <;> simp only [same, Bool.false_eq_true] at h
    rw [eachSame_iff] at h
    rw [hashable, allHashable_iff] at hw ⊢
    intro v hv
    obtain ⟨w, hw', hsame⟩ := forall₂_exists_right h v hv
    exact ih v hv hsame (hw w hw')
  | record typeName attrs ih =>
    cases w <;> simp only [same, Bool.false_eq_true] at h
    obtain ⟨-, hattrs⟩ := record_same_iff.mp (by simpa only [same] using h)
    rw [hashable, attrsHashable_iff] at hw ⊢
    intro a ha
    obtain ⟨b, hfind, hsame⟩ := hattrs.found a ha
    exact ih a ha hsame (hw b (List.mem_of_find?_eq_some hfind))
  | list | dict | set => cases w <;> simp_all [same, hashable]
  | _ => rfl

/-- Of well-formed values that are the same either both are hashable or neither is. -/
theorem WellFormed.hashable_eq_of_same {v w : Value} (hv : v.WellFormed) (hw : w.WellFormed)
    (h : same v w = true) : v.hashable = w.hashable :=
  Bool.eq_iff_iff.mpr ⟨hashable_of_same (equivOn.symm hv hw h), hashable_of_same h⟩

/-! ## Keys that differ -/

variable {β : Type} {entries entries' : List (Value × β)}

/-- Of well-formed keys that differ each two differ whichever of them is asked for. -/
theorem pairwise_apart_of_keysDiffer (h : Assoc.KeysDiffer same entries)
    (hkeys : ∀ e ∈ entries, e.1.WellFormed) :
    entries.Pairwise fun a b => same a.1 b.1 = false ∧ same b.1 a.1 = false := by
  refine h.imp_of_mem fun {a b} ha hb hne => ⟨?_, hne⟩
  rw [(hkeys a ha).same_comm (hkeys b hb)]
  exact hne

/-- Whether well-formed keys differ does not depend on their order. -/
theorem keysDiffer_perm (hperm : entries.Perm entries') (hkeys : ∀ e ∈ entries, e.1.WellFormed) :
    Assoc.KeysDiffer same entries ↔ Assoc.KeysDiffer same entries' := by
  have hkeys' : ∀ e ∈ entries', e.1.WellFormed := fun e he => hkeys e (hperm.mem_iff.mpr he)
  constructor
  · intro h
    exact (hperm.pairwise (pairwise_apart_of_keysDiffer h hkeys) And.symm).imp And.right
  · intro h
    exact (hperm.symm.pairwise (pairwise_apart_of_keysDiffer h hkeys') And.symm).imp And.right

end Value

end ScriptBridge
