import ScriptBridge.Proofs.Induction
import ScriptBridge.Proofs.Parallel
import ScriptBridge.Proofs.Parts
import ScriptBridge.Proofs.Storing
import ScriptBridge.Proofs.Traversal
import ScriptBridge.Value.Container

/-!
# Well-formed script values

What the operations on containers keep true of every value: keys and elements are hashable and
differ from each other, attribute names are identifiers and differ from each other. Only of such
values is sameness an equality.

- `Value.WellFormed`: the invariant, at every level of a value.
- `Value.WellFormed.of_mem_members`: it holds of the members too.
- `Value.wellFormed_dict_putAll`, `Value.wellFormed_set_insertAll`,
  `Value.wellFormed_record_putAll`: storing well-formed members keeps it, whichever of them are the
  same.
- `Value.eachSame_iff`, `Value.entriesWithin_iff`, `Value.itemsWithin_iff`, `Value.attrsWithin_iff`:
  the parts of sameness, member by member.
- `Value.same_of_attrsWithin`: attributes of one name, where attributes are found in others.
- `Value.WellFormed.same_self`: a well-formed value is the same as itself.
-/

namespace ScriptBridge

namespace Value

/-- A value as the operations on containers build it. -/
inductive WellFormed : Value → Prop
  | null : WellFormed null
  | bool (b : Bool) : WellFormed (bool b)
  | int (n : Int) : WellFormed (int n)
  | float (x : Binary64) : WellFormed (float x)
  | text (s : String) : WellFormed (text s)
  | bytes (bs : List UInt8) : WellFormed (bytes bs)
  | callable (c : Callable) : WellFormed (callable c)
  | list {items : List Value} (h : ∀ v ∈ items, WellFormed v) : WellFormed (list items)
  | tuple {items : List Value} (h : ∀ v ∈ items, WellFormed v) : WellFormed (tuple items)
  | dict {entries : List (Value × Value)} (hkeys : ∀ e ∈ entries, WellFormed e.1)
      (hvalues : ∀ e ∈ entries, WellFormed e.2) (hhash : ∀ e ∈ entries, e.1.hashable = true)
      (hdiffer : Assoc.KeysDiffer same entries) : WellFormed (dict entries)
  | set {items : List Value} (h : ∀ v ∈ items, WellFormed v)
      (hhash : ∀ v ∈ items, v.hashable = true)
      (hdiffer : items.Pairwise fun earlier later => same later earlier = false) :
      WellFormed (set items)
  | record {typeName : String} {attrs : List (String × Value)} (h : ∀ a ∈ attrs, WellFormed a.2)
      (hnames : ∀ a ∈ attrs, isIdentifier a.1 = true)
      (hdiffer : (attrs.map (·.1)).Nodup) : WellFormed (record typeName attrs)

/-- The members of a well-formed value are well formed. -/
theorem WellFormed.of_mem_members {v : Value} (h : v.WellFormed) :
    ∀ m ∈ v.members, m.WellFormed := by
  cases h with
  | list h => exact h
  | tuple h => exact h
  | set h _ _ => exact h
  | dict hkeys hvalues _ _ =>
    intro m hm
    obtain ⟨e, he, rfl | rfl⟩ := mem_keysAndValues.mp hm
    · exact hkeys e he
    · exact hvalues e he
  | record h _ _ => exact List.forall_mem_map.mpr h
  | _ => exact nofun

/-! ## Storing members -/

/-- Pairs that are stored under hashable keys make a well-formed dict. -/
theorem wellFormed_dict_putAll {pairs : List (Value × Value)}
    (h : ∀ p ∈ pairs, p.1.WellFormed ∧ p.2.WellFormed)
    (hhash : ∀ p ∈ pairs, p.1.hashable = true) :
    (dict (Assoc.putAll same [] pairs)).WellFormed := by
  have hstored := Assoc.forall_putAll (p := fun k => k.WellFormed ∧ k.hashable = true) same
    (List.forall_mem_nil _) fun p hp => ⟨⟨(h p hp).1, hhash p hp⟩, (h p hp).2⟩
  exact .dict (fun e he => (hstored e he).1.1) (fun e he => (hstored e he).2)
    (fun e he => (hstored e he).1.2) (Assoc.putAll_keysDiffer .nil pairs)

/-- Hashable elements that are inserted make a well-formed set. -/
theorem wellFormed_set_insertAll {items : List Value} (h : ∀ x ∈ items, x.WellFormed)
    (hhash : ∀ x ∈ items, x.hashable = true) :
    (set (Distinct.insertAll same [] items)).WellFormed := by
  have hkept : ∀ x ∈ Distinct.insertAll same [] items, x ∈ items := fun x hx => by
    simpa using (Distinct.insertAll_sublist same [] items).subset hx
  exact .set (fun x hx => h x (hkept x hx)) (fun x hx => hhash x (hkept x hx))
    (Distinct.Differ.insertAll .nil items)

/-- Attributes that are assigned to identifiers make a well-formed record. -/
theorem wellFormed_record_putAll {typeName : String} {pairs : List (String × Value)}
    (h : ∀ a ∈ pairs, a.2.WellFormed) (hnames : ∀ a ∈ pairs, isIdentifier a.1 = true) :
    (record typeName (Assoc.putAll (· == ·) [] pairs)).WellFormed := by
  have hstored := Assoc.forall_putAll (p := (isIdentifier · = true)) (q := WellFormed) (· == ·)
    (List.forall_mem_nil _) fun a ha => ⟨hnames a ha, h a ha⟩
  exact .record (fun a ha => (hstored a ha).2) (fun a ha => (hstored a ha).1)
    (Assoc.keysDiffer_iff_nodup.mp (Assoc.putAll_keysDiffer .nil pairs))

/-! ## Sameness, member by member -/

/-- Only null is the same as null. -/
theorem same_null_iff {v : Value} : same null v = true ↔ v = null := by
  cases v <;> simp [same]

theorem same_null_right_iff {v : Value} : same v null = true ↔ v = null := by
  cases v <;> simp [same]

theorem allHashable_iff {items : List Value} :
    allHashable items = true ↔ ∀ v ∈ items, v.hashable = true :=
  all_eq_true_iff allHashable rfl fun _ _ => rfl

theorem attrsHashable_iff {attrs : List (String × Value)} :
    attrsHashable attrs = true ↔ ∀ a ∈ attrs, a.2.hashable = true :=
  all_eq_true_iff attrsHashable (p := fun a => a.2.hashable) rfl fun _ _ => rfl

theorem eachSame_iff {as bs : List Value} :
    eachSame as bs = true ↔ List.Forall₂ (fun a b => same a b = true) as bs :=
  each_eq_true_iff eachSame rfl (fun _ _ => rfl) (fun _ _ => rfl) fun _ _ _ _ => by
    rw [eachSame, Bool.and_eq_true]

theorem entriesWithin_iff {as bs : List (Value × Value)} :
    entriesWithin as bs = true ↔ ∀ a ∈ as, ∃ b,
      bs.find? (fun e => same a.1 e.1) = some b ∧ same a.2 b.2 = true :=
  Assoc.within_iff (fun _ => rfl) fun (k, v) _ bs => by
    rw [entriesWithin]
    cases bs.find? fun e => same k e.1 <;> rfl

theorem itemsWithin_iff {as bs : List Value} :
    itemsWithin as bs = true ↔ ∀ a ∈ as, ∃ b ∈ bs, same a b = true := by
  rw [all_eq_true_iff (itemsWithin · bs) (p := fun a => bs.any (same a)) rfl fun _ _ => rfl]
  simp only [List.any_eq_true]

theorem attrsWithin_iff {as bs : List (String × Value)} :
    attrsWithin as bs = true ↔ ∀ a ∈ as, ∃ b,
      bs.find? (fun e => a.1 == e.1) = some b ∧ same a.2 b.2 = true :=
  Assoc.within_iff (fun _ => rfl) fun (k, v) _ bs => by
    rw [attrsWithin]
    cases bs.find? fun e => k == e.1 <;> rfl

/-- Where attributes are found in others, and two of them have one name, their values are the
same. -/
theorem same_of_attrsWithin {as bs : List (String × Value)}
    (hdiffer : Assoc.KeysDiffer (· == ·) bs) (hwithin : attrsWithin as bs = true) {i j : Nat}
    {a b : String × Value} (ha : as[i]? = some a) (hb : bs[j]? = some b) (hname : a.1 = b.1) :
    same a.2 b.2 = true := by
  obtain ⟨b', hb', hsame⟩ := attrsWithin_iff.mp hwithin a (List.mem_of_getElem? ha)
  have hfind := hdiffer.find?_self (List.mem_of_getElem? hb) (beq_self_eq_true _)
  rw [hname, hfind] at hb'
  obtain rfl := Option.some.inj hb'
  exact hsame

/-- A well-formed value is the same as itself. -/
theorem WellFormed.same_self {v : Value} (h : v.WellFormed) : same v v = true := by
  induction h with
  | null => rfl
  | list _ ih =>
    rw [same, eachSame_iff]
    exact List.forall₂_same.mpr ih
  | tuple _ ih =>
    rw [same, eachSame_iff]
    exact List.forall₂_same.mpr ih
  | dict _ _ _ hdiffer ihkeys ihvalues =>
    rw [same, Bool.and_eq_true, entriesWithin_iff]
    exact ⟨by simp, fun e he => ⟨e, hdiffer.find?_self he (ihkeys e he), ihvalues e he⟩⟩
  | set _ _ _ ih =>
    rw [same, Bool.and_eq_true, itemsWithin_iff]
    exact ⟨by simp, fun v hv => ⟨v, hv, ih v hv⟩⟩
  | @record typeName attrs _ _ hdiffer ih =>
    rw [same]
    simp only [beq_self_eq_true, Bool.true_and]
    rw [attrsWithin_iff]
    have hkeys : Assoc.KeysDiffer (· == ·) attrs := Assoc.keysDiffer_iff_nodup.mpr hdiffer
    exact fun a ha => ⟨a, hkeys.find?_self ha (by simp), ih a ha⟩
  | float x => simp [same, Binary.same]
  | _ => simp [same]

end Value

end ScriptBridge
