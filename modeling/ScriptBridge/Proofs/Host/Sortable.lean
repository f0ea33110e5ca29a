import ScriptBridge.Proofs.Ascending
import ScriptBridge.Proofs.Host.Inhabitants
import Mathlib.Order.Compare

/-!
# The order among the values of a type

The host orders the values of some types, and only those can be the keys of a sorted map. A
comparison of values of different types means nothing, so that the laws of an order are laws about
values of one type. They are proved along the type: what makes lists, maps and structs work is that
comparisons of parts can be chained.

- `HostType.Contains`, `HostType.Sortable`: types that are ordered through and through.
- `HostValue.compare_swap`: a comparison can be read from both ends.
- `HostValue.Inhabits.eq_of_compare_eq`: values of a sortable type that are not told apart are
  equal.
- `HostValue.Inhabits.coherent`: comparisons among three values of a sortable type go together.
- `HostValue.orderOn`: among the values of a sortable type the comparison is a linear order.
-/

namespace ScriptBridge

/-! ## Ordered types -/

namespace HostType

/-- A type is the other or is made of it, among others. -/
inductive Contains (schema : Schema) : HostType → HostType → Prop
  | self (t : HostType) : Contains schema t t
  | option {t u : HostType} (h : Contains schema t u) : Contains schema (option t) u
  | pointer {t u : HostType} (h : Contains schema t u) : Contains schema (pointer t) u
  | item {kind : SequenceKind} {item u : HostType} (h : Contains schema item u) :
      Contains schema (sequence kind item) u
  | key {kind : MappingKind} {key value u : HostType} (h : Contains schema key u) :
      Contains schema (mapping kind key value) u
  | value {kind : MappingKind} {key value u : HostType} (h : Contains schema value u) :
      Contains schema (mapping kind key value) u
  | field {name : String} {slot : Slot} {u : HostType}
      (hslot : slot ∈ (schema.lookup name).slots ++ (schema.lookup name).hidden)
      (h : Contains schema slot.type u) : Contains schema (struct name) u

/-- Whether the host orders the values of a type, once it orders those of the types inside. -/
def hasOrder : HostType → Bool
  | single => false
  | double => false
  | bytes => false
  | callable => false
  | script => false
  | dynamic => false
  | json => false
  | sequence .hashSet _ => false
  | mapping .hashMap _ _ => false
  | mapping .orderedMap _ _ => false
  | _ => true

/-- Types whose values the host orders, and which can be the keys of a sorted map. -/
def Sortable (schema : Schema) (t : HostType) : Prop :=
  ∀ u, t.Contains schema u → u.hasOrder = true

namespace Sortable

variable {schema : Schema} {t k v : HostType}

theorem option (h : (HostType.option t).Sortable schema) : t.Sortable schema :=
  fun u hu => h u (.option hu)

theorem pointer (h : (HostType.pointer t).Sortable schema) : t.Sortable schema :=
  fun u hu => h u (.pointer hu)

theorem item {kind : SequenceKind} (h : (HostType.sequence kind t).Sortable schema) :
    t.Sortable schema :=
  fun u hu => h u (.item hu)

theorem key {kind : MappingKind} (h : (HostType.mapping kind k v).Sortable schema) :
    k.Sortable schema :=
  fun u hu => h u (.key hu)

theorem value {kind : MappingKind} (h : (HostType.mapping kind k v).Sortable schema) :
    v.Sortable schema :=
  fun u hu => h u (.value hu)

theorem field {name : String} (h : (HostType.struct name).Sortable schema) {slot : Slot}
    (hslot : slot ∈ (schema.lookup name).slots ++ (schema.lookup name).hidden) :
    slot.type.Sortable schema :=
  fun u hu => h u (.field hslot hu)

end Sortable

end HostType

namespace HostValue

variable {schema : Schema} {x y z : HostValue} {t : HostType}

/-! ## Comparisons read from both ends -/

theorem compareItems_swap {as bs : List HostValue}
    (ih : ∀ a ∈ as, ∀ b, compare b a = (compare a b).swap) :
    compareItems bs as = (compareItems as bs).swap := by
  rw [compareItems_eq_compareLex, compareItems_eq_compareLex]
  exact compareLex_swap fun a ha b _ => ih a ha b

theorem compareEntries_swap {as bs : List (HostValue × HostValue)}
    (ih : ∀ a ∈ as, (∀ b, compare b a.1 = (compare a.1 b).swap) ∧
      ∀ b, compare b a.2 = (compare a.2 b).swap) :
    compareEntries bs as = (compareEntries as bs).swap := by
  rw [compareEntries_eq_compareLex, compareEntries_eq_compareLex]
  refine compareLex_swap fun a ha b _ => ?_
  rw [compareEntry, compareEntry, (ih a ha).1, (ih a ha).2, Ordering.swap_then]

/-- A comparison can be read from both ends. -/
theorem compare_swap (x y : HostValue) : compare y x = (compare x y).swap := by
  induction x generalizing y with
  | some x ih =>
    cases y with
    | some y => exact ih y
    | _ => rfl
  | sequence kind items ih =>
    cases y with
    | sequence kind' items' => exact compareItems_swap ih
    | _ => rfl
  | mapping kind entries ih =>
    cases y with
    | mapping kind' entries' => exact compareEntries_swap ih
    | _ => rfl
  | struct decl stored hidden ih ih' =>
    cases y with
    | struct decl' stored' hidden' =>
      rw [compare, compare, compareItems_swap ih, compareItems_swap ih', Ordering.swap_then]
    | _ => rfl
  | _ =>
    -- values without members are compared by their parts, or not told apart
    cases y <;> simp only [compare, Ordering.swap] <;> exact Std.OrientedOrd.eq_swap

/-! ## Comparisons of equal values -/

theorem eq_of_compareItems_eq {as bs : List HostValue}
    (ih : ∀ (i : Nat) (a b : HostValue), as[i]? = .some a → bs[i]? = .some b →
      compare a b = .eq → a = b) (h : compareItems as bs = .eq) : as = bs := by
  rw [compareItems_eq_compareLex, compareLex_eq_eq_iff] at h
  rw [← List.forall₂_eq_eq_eq]
  refine forall₂_of_getElem? h.length_eq fun i a b ha hb => ?_
  obtain ⟨a', ha', hab⟩ := forall₂_getElem?_left h hb
  obtain rfl := Option.some.inj (ha.symm.trans ha')
  exact ih i a b ha hb hab

theorem eq_of_compareEntries_eq {as bs : List (HostValue × HostValue)}
    (ih : ∀ a ∈ as, ∀ b ∈ bs, (compare a.1 b.1 = .eq → a.1 = b.1) ∧
      (compare a.2 b.2 = .eq → a.2 = b.2)) (h : compareEntries as bs = .eq) : as = bs := by
  rw [compareEntries_eq_compareLex, compareLex_eq_eq_iff] at h
  rw [← List.forall₂_eq_eq_eq]
  refine forall₂_imp_of_mem h fun a ha b hb hab => ?_
  obtain ⟨hkey, hvalue⟩ := Ordering.then_eq_eq.mp hab
  exact Prod.ext ((ih a ha b hb).1 hkey) ((ih a ha b hb).2 hvalue)

namespace Inhabits

/-- Fields of two structs that are not told apart are equal, since the fields at one index have one
type. -/
theorem eq_of_compareItems_fields {slots : List Slot} {fields fields' : List HostValue}
    (hlength : fields.length = slots.length) (ht : ∀ slot ∈ slots, slot.type.Sortable schema)
    (ih : ∀ (i : Nat) (x : HostValue) (slot : Slot), fields[i]? = .some x →
      slots[i]? = .some slot → ∀ {y}, slot.type.Sortable schema → y.Inhabits schema slot.type →
        compare x y = .eq → x = y)
    (h' : AtSlots schema slots fields')
    (h : compareItems fields fields' = .eq) : fields = fields' := by
  refine eq_of_compareItems_eq (fun i x y hx hy => ?_) h
  obtain ⟨slot, hslot⟩ := exists_slot hlength hx
  exact ih i x slot hx hslot (ht slot (List.mem_of_getElem? hslot)) (h' i y hy slot hslot)

/-- Values of a sortable type that are not told apart are equal. -/
theorem eq_of_compare_eq (hx : x.Inhabits schema t) (ht : t.Sortable schema)
    (hy : y.Inhabits schema t) (h : compare x y = .eq) : x = y := by
  induction hx generalizing y with
  | bool a =>
    cases hy with
    | bool b => exact congrArg HostValue.bool (Std.LawfulEqOrd.eq_of_compare h)
  | int t m =>
    cases hy with
    | int _ n => exact congrArg _ (Fixed.val_inj.mp (Std.LawfulEqOrd.eq_of_compare h))
  | wrapping t m =>
    cases hy with
    | wrapping _ n => exact congrArg _ (Fixed.val_inj.mp (Std.LawfulEqOrd.eq_of_compare h))
  | bigInt m =>
    cases hy with
    | bigInt n => exact congrArg HostValue.bigInt (Std.LawfulEqOrd.eq_of_compare h)
  | string s =>
    cases hy with
    | string t => exact congrArg HostValue.string (Std.LawfulEqOrd.eq_of_compare h)
  | char c =>
    cases hy with
    | char d => exact congrArg _ (Char.toNat_inj.mp (Std.LawfulEqOrd.eq_of_compare h))
  | none t =>
    cases hy with
    | none => rfl
    | some => cases h
  | some _ ih =>
    cases hy with
    | none => cases h
    | some hy => exact congrArg HostValue.some (ih ht.option hy h)
  | pointer _ ih => exact ih ht.pointer (pointer_iff.mp hy) h
  | sequence _ ih =>
    cases hy with
    | sequence hy =>
      have hitems := eq_of_compareItems_eq (fun i a b ha hb =>
        ih a (List.mem_of_getElem? ha) ht.item (hy b (List.mem_of_getElem? hb))) h
      rw [hitems]
  | mapping _ _ ihkeys ihvalues =>
    cases hy with
    | mapping hkeys hvalues =>
      have hentries := eq_of_compareEntries_eq (fun a ha b hb =>
        ⟨ihkeys a ha ht.key (hkeys b hb), ihvalues a ha ht.value (hvalues b hb)⟩) h
      rw [hentries]
  | struct hdecl hstored hhidden _ _ ih ih' =>
    cases hy with
    | struct hdecl' hstored' hhidden' hy hy' =>
      rw [compare, Ordering.then_eq_eq] at h
      rw [eq_of_compareItems_fields hstored (fun slot hs => ht.field (by simp [hs])) ih
          (fun i y hi slot => hy i y slot hi) h.1,
        eq_of_compareItems_fields hhidden (fun slot hs => ht.field (by simp [hs])) ih'
          (fun i y hi slot => hy' i y slot hi) h.2, hdecl, hdecl']
  | _ => exact absurd (ht _ (.self _)) (by decide)

end Inhabits

/-! ## Comparisons of three values -/

theorem compareItems_coherent {as bs cs : List HostValue}
    (ih : ∀ (i : Nat) (a b c : HostValue), as[i]? = .some a → bs[i]? = .some b →
      cs[i]? = .some c → Coherent (compare a b) (compare b c) (compare a c)) :
    Coherent (compareItems as bs) (compareItems bs cs) (compareItems as cs) := by
  simp only [compareItems_eq_compareLex]
  exact .compareLex ih

theorem compareEntries_coherent {as bs cs : List (HostValue × HostValue)}
    (ih : ∀ a ∈ as, ∀ b ∈ bs, ∀ c ∈ cs,
      Coherent (compare a.1 b.1) (compare b.1 c.1) (compare a.1 c.1) ∧
        Coherent (compare a.2 b.2) (compare b.2 c.2) (compare a.2 c.2)) :
    Coherent (compareEntries as bs) (compareEntries bs cs) (compareEntries as cs) := by
  simp only [compareEntries_eq_compareLex]
  refine .compareLex fun i a b c ha hb hc => ?_
  have hentry := ih a (List.mem_of_getElem? ha) b (List.mem_of_getElem? hb) c
    (List.mem_of_getElem? hc)
  exact hentry.1.chain hentry.2

namespace Inhabits

/-- Comparisons of fields go together, since the fields at one index have one type. -/
theorem coherent_fields {slots : List Slot} {fields fields' fields'' : List HostValue}
    (hlength : fields.length = slots.length) (ht : ∀ slot ∈ slots, slot.type.Sortable schema)
    (ih : ∀ (i : Nat) (x : HostValue) (slot : Slot), fields[i]? = .some x →
      slots[i]? = .some slot → ∀ {y z}, slot.type.Sortable schema →
        y.Inhabits schema slot.type → z.Inhabits schema slot.type →
          Coherent (compare x y) (compare y z) (compare x z))
    (h' : AtSlots schema slots fields')
    (h'' : AtSlots schema slots fields'') :
    Coherent (compareItems fields fields') (compareItems fields' fields'')
      (compareItems fields fields'') := by
  refine compareItems_coherent fun i x y z hx hy hz => ?_
  obtain ⟨slot, hslot⟩ := exists_slot hlength hx
  exact ih i x slot hx hslot (ht slot (List.mem_of_getElem? hslot)) (h' i y hy slot hslot)
    (h'' i z hz slot hslot)

/-- Comparisons among three values of a sortable type go together. -/
theorem coherent (hx : x.Inhabits schema t) (ht : t.Sortable schema) (hy : y.Inhabits schema t)
    (hz : z.Inhabits schema t) : Coherent (compare x y) (compare y z) (compare x z) := by
  induction hx generalizing y z with
  | bool | int | wrapping | bigInt | string | char =>
    cases hy
    cases hz
    exact .of_compare _ _ _
  | none =>
    cases hy <;> cases hz <;> simp [Coherent, compare]
  | some _ ih =>
    cases hy with
    | none => cases hz <;> simp [Coherent, compare]
    | some hy =>
      cases hz with
      | none => simp [Coherent, compare]
      | some hz => exact ih ht.option hy hz
  | pointer _ ih => exact ih ht.pointer (pointer_iff.mp hy) (pointer_iff.mp hz)
  | sequence _ ih =>
    cases hy with
    | sequence hy =>
      cases hz with
      | sequence hz =>
        exact compareItems_coherent fun i a b c ha hb hc => ih a (List.mem_of_getElem? ha) ht.item
          (hy b (List.mem_of_getElem? hb)) (hz c (List.mem_of_getElem? hc))
  | mapping _ _ ihkeys ihvalues =>
    cases hy with
    | mapping hykeys hyvalues =>
      cases hz with
      | mapping hzkeys hzvalues =>
        exact compareEntries_coherent fun a ha b hb c hc =>
          ⟨ihkeys a ha ht.key (hykeys b hb) (hzkeys c hc),
            ihvalues a ha ht.value (hyvalues b hb) (hzvalues c hc)⟩
  | struct _ hstored hhidden _ _ ih ih' =>
    cases hy with
    | struct hydecl hystored hyhidden hy hy' =>
      cases hz with
      | struct hzdecl hzstored hzhidden hz hz' =>
        exact (coherent_fields hstored (fun slot hs => ht.field (by simp [hs])) ih
            (fun i y hi slot => hy i y slot hi) (fun i z hi slot => hz i z slot hi)).chain
          (coherent_fields hhidden (fun slot hs => ht.field (by simp [hs])) ih'
            (fun i y hi slot => hy' i y slot hi) (fun i z hi slot => hz' i z slot hi))
  | _ => exact absurd (ht _ (.self _)) (by decide)

/-- Values of a sortable type that are the same are equal. -/
theorem eq_of_same (hx : x.Inhabits schema t) (hy : y.Inhabits schema t) (ht : t.Sortable schema)
    (h : same x y = true) : x = y :=
  hx.eq_of_compare_eq ht hy (compare_eq_of_same h)

end Inhabits

/-- Among the values of a sortable type the comparison is a linear order. -/
theorem orderOn (ht : t.Sortable schema) : OrderOn compare (·.Inhabits schema t) where
  swap _ _ := compare_swap _ _
  coherent hx hy hz := hx.coherent ht hy hz
  eq hx hy := hx.eq_of_compare_eq ht hy

end HostValue

end ScriptBridge
