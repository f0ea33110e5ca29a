import ScriptBridge.Proofs.Decoding.Dynamic
import ScriptBridge.Proofs.Storing
import ScriptBridge.Proofs.Value.Equality

/-!
# Equality of dynamic values is an equivalence

Dynamic values are compared as script values are, with two differences: the two kinds of integers
never meet, and a key may be any value, maps included, so that no key is ruled out by what it holds.
What is left of well-formedness is that a map holds each key once.

- `Dynamic.WellFormed`: maps hold each key once, at every level.
- `Dynamic.list_same_iff`, `Dynamic.map_same_iff`: equality as a relation on the parts of values.
- `Dynamic.WellFormed.equivAt`, `Dynamic.equivOn`: equality is an equivalence.
- `Value.dynamic_wellFormed`: dynamic values that were decoded are well formed.
- `same_equivalence`: both kinds of values together, with hashability.
-/

namespace ScriptBridge

namespace Dynamic

/-- A value whose maps hold each key once. -/
inductive WellFormed : Dynamic → Prop
  | null : WellFormed null
  | bool (b : Bool) : WellFormed (bool b)
  | int (n : Fixed .int64) : WellFormed (int n)
  | uint (n : Fixed .uint64) : WellFormed (uint n)
  | float (x : Binary64) : WellFormed (float x)
  | str (s : String) : WellFormed (str s)
  | bytes (bs : List UInt8) : WellFormed (bytes bs)
  | list {items : List Dynamic} (h : ∀ d ∈ items, WellFormed d) : WellFormed (list items)
  | map {entries : List (Dynamic × Dynamic)} (hkeys : ∀ e ∈ entries, WellFormed e.1)
      (hvalues : ∀ e ∈ entries, WellFormed e.2) (hdiffer : Assoc.KeysDiffer same entries) :
      WellFormed (map entries)

/-- The map of well-formed entries is well formed. -/
theorem wellFormed_ofEntries {entries : List (Dynamic × Dynamic)}
    (h : ∀ e ∈ entries, e.1.WellFormed ∧ e.2.WellFormed) : (ofEntries entries).WellFormed := by
  have hstored := Assoc.forall_putAll same (List.forall_mem_nil _) h
  exact .map (fun e he => (hstored e he).1) (fun e he => (hstored e he).2)
    (Assoc.putAll_keysDiffer .nil entries)

/-! ## Equality as a relation -/

theorem entriesWithin_iff {as bs : List (Dynamic × Dynamic)} :
    entriesWithin as bs = true ↔ ∀ a ∈ as, ∃ b,
      bs.find? (fun e => same a.1 e.1) = some b ∧ same a.2 b.2 = true :=
  Assoc.within_iff (fun _ => rfl) fun (k, v) _ bs => by
    rw [entriesWithin]
    cases bs.find? fun e => same k e.1 <;> rfl

/-- Equality as a relation. -/
def Same (d e : Dynamic) : Prop := same d e = true

theorem list_same_iff {ds es : List Dynamic} :
    same (list ds) (list es) = true ↔ List.Forall₂ Same ds es := by
  rw [same, eachSame_iff]
  rfl

theorem map_same_iff {as bs : List (Dynamic × Dynamic)} :
    same (map as) (map bs) = true ↔ SameMap same Same as bs := by
  rw [same, Bool.and_eq_true, beq_iff_eq, entriesWithin_iff]
  exact ⟨fun h => ⟨h.1, h.2⟩, fun h => ⟨h.length, h.found⟩⟩

/-- What a value without members is compared by. -/
def scalar? : Dynamic → Option Dynamic
  | null => some null
  | bool b => some (bool b)
  | int n => some (int n)
  | uint n => some (uint n)
  | float x => some (float x.canonical)
  | str s => some (str s)
  | bytes bs => some (bytes bs)
  | _ => none

theorem same_iff_of_scalar {d e s : Dynamic} (hd : d.scalar? = some s) :
    same d e = true ↔ e.scalar? = some s := by
  cases d <;> cases hd <;> cases e <;> simp [same, scalar?, Binary.same, Fixed.val_inj]
  all_goals exact eq_comm

theorem same_iff_of_scalar_right {d e s : Dynamic} (he : e.scalar? = some s) :
    same d e = true ↔ d.scalar? = some s := by
  cases e <;> cases he <;> cases d <;> simp [same, scalar?, Binary.same, Fixed.val_inj]

theorem equivAt_of_scalar {d s : Dynamic} (hd : d.scalar? = some s) : EquivAt Same WellFormed d :=
  .of_key hd same_iff_of_scalar same_iff_of_scalar_right

/-! ## Well-formed values -/

/-- Every value is equal to itself whose maps find their own keys. -/
theorem WellFormed.same_self {d : Dynamic} (h : d.WellFormed) : same d d = true := by
  induction h with
  | null => rfl
  | list _ ih => exact list_same_iff.mpr (List.forall₂_same.mpr ih)
  | map _ _ hdiffer ihkeys ihvalues =>
    refine map_same_iff.mpr ⟨rfl, fun e he => ?_⟩
    exact ⟨e, hdiffer.find?_self he (ihkeys e he), ihvalues e he⟩
  | _ => exact (same_iff_of_scalar rfl).mpr rfl

theorem soundMap_of_map {entries : List (Dynamic × Dynamic)} (h : (map entries).WellFormed) :
    SoundMap same WellFormed WellFormed entries := by
  cases h with
  | map hkeys hvalues hdiffer => exact ⟨fun e he => ⟨hkeys e he, hvalues e he⟩, hdiffer⟩

/-- Equality of lists and of maps is an equivalence where equality of their members is. -/
theorem equivAt_list {items : List Dynamic} (h : ∀ d ∈ items, d.WellFormed)
    (ih : ∀ d ∈ items, EquivAt Same WellFormed d) : EquivAt Same WellFormed (list items) :=
  .of_iff list (.forall₂ ih) (.list h) (fun hd => by cases hd; assumption)
    (fun {y b} hb => by cases b <;> simp_all [Same, same]) list_same_iff

theorem equivAt_map {entries : List (Dynamic × Dynamic)} (h : (map entries).WellFormed)
    (ih : ∀ e ∈ entries, EquivAt Same WellFormed e.1 ∧ EquivAt Same WellFormed e.2) :
    EquivAt Same WellFormed (map entries) :=
  .of_iff map
    (.maps (fun e he => (ih e he).1) (fun e he => (ih e he).2) (soundMap_of_map h)) h
    soundMap_of_map (fun {y b} hb => by cases b <;> simp_all [Same, same]) map_same_iff

/-- Equality is an equivalence at every well-formed value. -/
theorem WellFormed.equivAt {d : Dynamic} (h : d.WellFormed) : EquivAt Same WellFormed d := by
  induction d with
  | list items ih =>
    cases h with
    | list h => exact equivAt_list h fun d hd => ih d hd (h d hd)
  | map entries ih =>
    have hgood := (soundMap_of_map h).1
    exact equivAt_map h fun e he => ⟨(ih e he).1 (hgood e he).1, (ih e he).2 (hgood e he).2⟩
  | _ => exact equivAt_of_scalar rfl

/-- Among well-formed values equality is an equivalence. -/
theorem equivOn : EquivOn same WellFormed := .of_equivAt WellFormed.same_self WellFormed.equivAt

end Dynamic

/-- What is decoded holds each key once, since of two keys that became equal one was kept. -/
theorem Value.dynamic_wellFormed {v : Value} {d : Dynamic} (h : v.dynamic = .ok d) :
    d.WellFormed := by
  induction v generalizing d with
  | list items ih | tuple items ih | set items ih =>
    obtain ⟨ds, hds, hd⟩ := bind_eq_ok.mp h
    obtain rfl := pure_eq_ok.mp hd
    refine .list fun d hd => ?_
    obtain ⟨v, hv, hvd⟩ := forall₂_exists_left (dynamicItems_eq_ok.mp hds) d hd
    exact ih v hv hvd
  | dict entries ih =>
    obtain ⟨ds, hds, hd⟩ := bind_eq_ok.mp h
    obtain rfl := pure_eq_ok.mp hd
    refine Dynamic.wellFormed_ofEntries fun e he => ?_
    obtain ⟨p, hp, hkey, hvalue⟩ := forall₂_exists_left (dynamicEntries_eq_ok.mp hds) e he
    exact ⟨(ih p hp).1 hkey, (ih p hp).2 hvalue⟩
  | int n =>
    rcases dynamicInt_eq_ok.mp h with ⟨hn, rfl⟩ | ⟨-, hn, rfl⟩
    · exact .int _
    · exact .uint _
  | callable | record => cases h
  | _ =>
    cases h
    constructor

/-- Sameness of script values is an equivalence and respects hashability, and equality of dynamic
values is an equivalence too, all this among values whose containers hold each key once. -/
theorem same_equivalence :
    (Equivalence fun a b : { v : Value // v.WellFormed } => a.1.same b.1 = true) ∧
      (∀ a b : Value, a.WellFormed → b.WellFormed → a.same b = true → a.hashable = b.hashable) ∧
        Equivalence fun a b : { d : Dynamic // d.WellFormed } => a.1.same b.1 = true :=
  ⟨Value.equivOn.equivalence, fun _ _ ha hb h => ha.hashable_eq_of_same hb h,
    Dynamic.equivOn.equivalence⟩

/-- Records whose attributes stand in two orders, with two NaNs and both zeros in them, and a map
that has a map as a key. -/
theorem same_equivalence_reordered :
    let nan : Binary64 := .nan .double
    let otherNaN : Binary64 := .ofBits .double 0x7ff8000000000001
    let zero : Binary64 := .zero .double
    let minusZero : Binary64 := .ofBits .double 0x8000000000000000
    let a := Value.record "P" [("x", .float nan), ("y", .tuple [.float zero])]
    let b := Value.record "P" [("y", .tuple [.float minusZero]), ("x", .float otherNaN)]
    let d := Dynamic.map [(.map [(.float nan, .null)], .bool true), (.float zero, .null)]
    let e := Dynamic.map
      [(.float minusZero, .null), (.map [(.float otherNaN, .null)], .bool true)]
    nan ≠ otherNaN ∧ zero ≠ minusZero ∧ a.WellFormed ∧ b.WellFormed ∧ a.same b = true ∧
      b.same a = true ∧ a.same a = true ∧ a.hashable = b.hashable ∧ d.WellFormed ∧ e.WellFormed ∧
        d.same e = true ∧ e.same d = true ∧ d.same d = true := by
  intro nan otherNaN zero minusZero a b d e
  have ha : a.WellFormed := by
    refine .record ?_ (by decide) (by decide)
    simp [Value.WellFormed.float, Value.WellFormed.tuple]
  have hb : b.WellFormed := by
    refine .record ?_ (by decide) (by decide)
    simp [Value.WellFormed.float, Value.WellFormed.tuple]
  have hkey : ∀ x, (Dynamic.map [(.float x, .null)]).WellFormed := fun x =>
    .map (by simp [Dynamic.WellFormed.float]) (by simp [Dynamic.WellFormed.null])
      (List.pairwise_singleton _ _)
  have hd : d.WellFormed := by
    refine .map ?_ ?_ (by unfold Assoc.KeysDiffer; decide)
    · simp [hkey, Dynamic.WellFormed.float]
    · simp [Dynamic.WellFormed.bool, Dynamic.WellFormed.null]
  have he : e.WellFormed := by
    refine .map ?_ ?_ (by unfold Assoc.KeysDiffer; decide)
    · simp [hkey, Dynamic.WellFormed.float]
    · simp [Dynamic.WellFormed.bool, Dynamic.WellFormed.null]
  have hab : a.same b = true := by decide
  have hde : d.same e = true := by decide
  obtain ⟨hvalue, hhash, hdynamic⟩ := same_equivalence
  exact ⟨by decide, by decide, ha, hb, hab, hvalue.symm (x := ⟨a, ha⟩) (y := ⟨b, hb⟩) hab,
    hvalue.refl ⟨a, ha⟩, hhash a b ha hb hab, hd, he, hde,
    hdynamic.symm (x := ⟨d, hd⟩) (y := ⟨e, he⟩) hde, hdynamic.refl ⟨d, hd⟩⟩

end ScriptBridge
