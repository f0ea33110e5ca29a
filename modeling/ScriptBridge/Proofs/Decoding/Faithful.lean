import ScriptBridge.Proofs.Decoding.Dynamic
import ScriptBridge.Proofs.Decoding.Typed
import ScriptBridge.Proofs.Storing

/-!
# Types that keep what they are given

From a value of most host types it can be told which script value it was decoded from, but for the
kind of container that a sequence was. What could get in the way are maps: keys of a dict that
differ may be decoded to keys that do not. That happens to keys with members only, which scripts
would not take back.

- `HostType.Faithful`, `HostType.Ordered`: the types, and those of them that a sorted map can have
  as keys.
- `Decodes`: what faithful types make of script values; `HostType.Faithful.decodes` is the inversion
  of the decoder that all else rests on.
- `Decodes.eq_scalar`: a value without members stands for what it was decoded from.
- `Decodes.scalars_of_same`, `Decodes.scalars_of_compare`: so do keys that a map takes for each
  other.
- `MappingKind.collect_perm`, `Dynamic.putAll_perm`: a map whose keys have no members has lost
  nothing.
-/

namespace ScriptBridge

variable {schema : Schema}

/-! ## The types -/

/-- Whether a sequence keeps all its items, in their order. -/
def SequenceKind.keepsAll : SequenceKind → Bool
  | vector => true
  | array _ => true
  | hashSet => false
  | sortedSet => false

namespace HostType

/-- Types of ordered values, which can be the keys of a sorted map. -/
inductive Ordered : HostType → Prop
  | bool : Ordered bool
  | int (t : IntType) : Ordered (int t)
  | bigInt : Ordered bigInt
  | string : Ordered string
  | char : Ordered char
  | option {t : HostType} (h : Ordered t) : Ordered (option t)
  | pointer {t : HostType} (h : Ordered t) : Ordered (pointer t)
  | sequence {kind : SequenceKind} {item : HostType} (hkind : kind.keepsAll = true)
      (h : Ordered item) : Ordered (sequence kind item)
  | sortedMap {key value : HostType} (hkey : Ordered key) (hvalue : Ordered value) :
      Ordered (mapping .sortedMap key value)

/-- Types whose values tell which script values they were decoded from, but for the containers that
sequences were. -/
inductive Faithful : HostType → Prop
  | bool : Faithful bool
  | int (t : IntType) : Faithful (int t)
  | bigInt : Faithful bigInt
  | double : Faithful double
  | string : Faithful string
  | char : Faithful char
  | bytes : Faithful bytes
  | callable : Faithful callable
  | script : Faithful script
  | dynamic : Faithful dynamic
  | option {t : HostType} (h : Faithful t) : Faithful (option t)
  | pointer {t : HostType} (h : Faithful t) : Faithful (pointer t)
  | sequence {kind : SequenceKind} {item : HostType} (hkind : kind.keepsAll = true)
      (h : Faithful item) : Faithful (sequence kind item)
  | mapping {kind : MappingKind} {key value : HostType} (hkey : Faithful key)
      (hvalue : Faithful value) (hordered : kind = .sortedMap → Ordered key) :
      Faithful (mapping kind key value)

/-- Whether a type takes or refuses a value without looking at its members. -/
def isWhole : HostType → Bool
  | option _ => false
  | pointer _ => false
  | sequence .. => false
  | mapping .. => false
  | struct _ => false
  | _ => true

end HostType

/-! ## Steps of the decoder -/

@[simp] theorem expectPart_eq_ok {α : Type} {v : Value} {t : HostType} {part : Option α} {a : α} :
    expectPart v t part = .ok a ↔ part = some a := by
  cases part <;> simp [expectPart]

/-- Types that ask for no members treat all values alike. -/
theorem decode_of_isWhole {t : HostType} (h : t.isWhole = true) (v : Value) :
    decode schema v t = decodeLeaf v t := by
  cases t with
  | option | pointer | sequence | mapping | struct => cases h
  | _ => cases v <;> rfl

/-- Null is absent in an option, and all else is present. -/
theorem decode_option_eq_ok {v : Value} {t : HostType} {x : HostValue} :
    decode schema v (.option t) = .ok x ↔
      v = .null ∧ x = .none ∨ v ≠ .null ∧ ∃ y, decode schema v t = .ok y ∧ x = .some y := by
  by_cases hv : v = .null
  · subst hv
    rw [decode_option_null]
    simp [eq_comm]
  · rw [decode_option hv]
    cases decode schema v t <;> simp [hv, Functor.map, Except.map, eq_comm]

/-- What is decoded as dynamic is a dynamic value. -/
theorem decode_dynamic_eq_ok {v : Value} {x : HostValue} :
    decode schema v .dynamic = .ok x ↔ ∃ d, v.dynamic = .ok d ∧ x = .dynamic d := by
  rw [decode_of_isWhole rfl]
  simp only [decodeLeaf, bind_eq_ok, pure_eq_ok, eq_comm (a := x)]

/-- The dynamic value is the dynamic form. -/
theorem decode_dynamic_eq_dynamic {v : Value} {d : Dynamic} :
    decode schema v .dynamic = .ok (.dynamic d) ↔ v.dynamic = .ok d := by
  rw [decode_dynamic_eq_ok]
  constructor
  · rintro ⟨e, he, hde⟩
    rwa [HostValue.dynamic.inj hde]
  · intro hd
    exact ⟨d, hd, rfl⟩

/-- The members of a list, a tuple or a set. -/
def Value.members? : Value → Option (List Value)
  | list items => some items
  | tuple items => some items
  | set items => some items
  | _ => none

/-- A sequence that keeps all its items consists of them. -/
theorem finishSequence_of_keepsAll {v : Value} {kind : SequenceKind} {item : HostType}
    {xs : List HostValue} {x : HostValue} (hkind : kind.keepsAll = true)
    (h : finishSequence v kind item xs = .ok x) : x = .sequence kind xs := by
  cases kind with
  | vector => exact (Except.ok.inj h).symm
  | array length =>
    rw [finishSequence] at h
    split at h
    · exact (Except.ok.inj h).symm
    · cases h
  | hashSet => cases hkind
  | sortedSet => cases hkind

/-- The items of a sequence come from members, or from bytes if it takes them. -/
theorem decode_sequence_eq_ok {v : Value} {kind : SequenceKind} {item : HostType} {x : HostValue}
    (h : decode schema v (.sequence kind item) = .ok x) :
    ∃ xs, ((∃ vs, v.members? = some vs ∧
        List.Forall₂ (fun v x => decode schema v item = .ok x) vs xs) ∨
          kind.takesBytes item = true ∧ ∃ bs, v = .bytes bs ∧ xs = bs.map .ofByte) ∧
      finishSequence v kind item xs = .ok x := by
  have hleaf (hv : decodeLeaf v (.sequence kind item) = .ok x) :
      kind.takesBytes item = true ∧ ∃ bs, v = .bytes bs ∧
        finishSequence v kind item (bs.map .ofByte) = .ok x := by
    obtain ⟨bs, hbs, hfinish⟩ := bind_eq_ok.mp hv
    rw [expectPart_eq_ok] at hbs
    by_cases htakes : kind.takesBytes item = true
    · rw [if_pos htakes] at hbs
      cases v <;> simp only [Value.asBytes?, reduceCtorEq, Option.some.injEq] at hbs
      subst hbs
      exact ⟨htakes, _, rfl, hfinish⟩
    · rw [if_neg htakes] at hbs
      cases hbs
  cases v with
  | list items | tuple items | set items =>
    obtain ⟨xs, hxs, hfinish⟩ := bind_eq_ok.mp h
    exact ⟨xs, .inl ⟨items, rfl, decodeItems_eq_ok.mp hxs⟩, hfinish⟩
  | _ =>
    obtain ⟨htakes, bs, hbs, hfinish⟩ := hleaf h
    exact ⟨_, .inr ⟨htakes, bs, hbs, rfl⟩, hfinish⟩

/-! ## What decoding yields -/

/-- Which values of faithful types script values are decoded to. -/
inductive Decodes (schema : Schema) : HostType → Value → HostValue → Prop
  | bool (b : Bool) : Decodes schema .bool (.bool b) (.bool b)
  | int {t : IntType} (n : Fixed t) : Decodes schema (.int t) (.int n.val) (.int t n)
  | bigInt (n : Int) : Decodes schema .bigInt (.int n) (.bigInt n)
  | double (x : Binary64) : Decodes schema .double (.float x) (.double x)
  | string (s : String) : Decodes schema .string (.text s) (.string s)
  | char (c : Char) : Decodes schema .char (.text (String.ofList [c])) (.char c)
  | bytes (bs : List UInt8) : Decodes schema .bytes (.bytes bs) (.bytes bs)
  | callable (c : Callable) : Decodes schema .callable (.callable c) (.callable c)
  | script (v : Value) : Decodes schema .script v (.script v)
  | dynamic {v : Value} {d : Dynamic} (h : v.dynamic = .ok d) :
      Decodes schema .dynamic v (.dynamic d)
  | absent (t : HostType) : Decodes schema (.option t) .null .none
  | present {t : HostType} {v : Value} {x : HostValue} (hv : v ≠ .null) (h : Decodes schema t v x) :
      Decodes schema (.option t) v (.some x)
  | pointer {t : HostType} {v : Value} {x : HostValue} (h : Decodes schema t v x) :
      Decodes schema (.pointer t) v x
  | members {kind : SequenceKind} {item : HostType} {v : Value} {vs : List Value}
      {xs : List HostValue} (hvs : v.members? = some vs)
      (h : List.Forall₂ (fun v x => decode schema v item = .ok x) vs xs) :
      Decodes schema (.sequence kind item) v (.sequence kind xs)
  | packed {kind : SequenceKind} {item : HostType} (h : kind.takesBytes item = true)
      (bs : List UInt8) :
      Decodes schema (.sequence kind item) (.bytes bs) (.sequence kind (bs.map .ofByte))
  | entries {kind : MappingKind} {key value : HostType} {pairs : List (Value × Value)}
      {entries : List (HostValue × HostValue)}
      (h : List.Forall₂ (DecodesEntry schema key value) pairs entries) :
      Decodes schema (.mapping kind key value) (.dict pairs) (.mapping kind (kind.collect entries))

/-- A sequence of a kind that keeps all its items is decoded from members, or from bytes if it takes
them. -/
theorem decodes_sequence {v : Value} {kind : SequenceKind} {item : HostType} {x : HostValue}
    (hkind : kind.keepsAll = true) (h : decode schema v (.sequence kind item) = .ok x) :
    Decodes schema (.sequence kind item) v x := by
  obtain ⟨xs, hxs, hfinish⟩ := decode_sequence_eq_ok h
  rw [finishSequence_of_keepsAll hkind hfinish]
  rcases hxs with ⟨vs, hvs, hxs⟩ | ⟨htakes, bs, rfl, rfl⟩
  · exact .members hvs hxs
  · exact .packed htakes bs

/-- A map is decoded from a dict. -/
theorem decodes_mapping {v : Value} {kind : MappingKind} {key value : HostType} {x : HostValue}
    (h : decode schema v (.mapping kind key value) = .ok x) :
    Decodes schema (.mapping kind key value) v x := by
  cases v with
  | dict pairs =>
    obtain ⟨entries, hentries, hx⟩ := bind_eq_ok.mp h
    rw [← pure_eq_ok.mp hx]
    exact .entries (decodeEntries_eq_ok.mp hentries)
  | _ => cases h

theorem decodes_int {v : Value} {t : IntType} {x : HostValue}
    (h : decode schema v (.int t) = .ok x) : Decodes schema (.int t) v x := by
  rw [decode_of_isWhole rfl, decodeLeaf, bind_eq_ok] at h
  obtain ⟨n, hn, hx⟩ := h
  obtain rfl : v = .int n := by cases v <;> simp_all [Value.asInt?]
  rw [decodeFixed, Fixed.ofInt?] at hx
  by_cases hrange : t.InRange n
  · rw [dif_pos hrange] at hx
    obtain rfl := Except.ok.inj hx
    exact .int ⟨n, hrange⟩
  · rw [dif_neg hrange] at hx
    cases hx

theorem decodes_char {v : Value} {x : HostValue} (h : decode schema v .char = .ok x) :
    Decodes schema .char v x := by
  rw [decode_of_isWhole rfl, decodeLeaf, bind_eq_ok] at h
  obtain ⟨s, hs, hx⟩ := h
  obtain rfl : v = .text s := by cases v <;> simp_all [Value.asText?]
  rw [decodeChar] at hx
  split at hx
  · next c hc =>
    obtain rfl := Except.ok.inj hx
    obtain rfl : s = String.ofList [c] := by rw [← hc, String.ofList_toList]
    exact .char c
  · cases hx

/-- **Inversion.** What a faithful type takes, and what it makes of it. -/
theorem HostType.Faithful.decodes {t : HostType} {v : Value} {x : HostValue} (ht : t.Faithful)
    (h : decode schema v t = .ok x) : Decodes schema t v x := by
  induction ht generalizing x with
  | option _ ih =>
    rcases decode_option_eq_ok.mp h with ⟨rfl, rfl⟩ | ⟨hv, y, hy, rfl⟩
    · exact .absent _
    · exact .present hv (ih hy)
  | pointer _ ih => exact .pointer (ih (decode_pointer v _ ▸ h))
  | sequence hkind _ _ => exact decodes_sequence hkind h
  | mapping _ _ _ _ _ => exact decodes_mapping h
  | int t => exact decodes_int h
  | char => exact decodes_char h
  | script =>
    rw [decode_of_isWhole rfl, decodeLeaf] at h
    obtain rfl := Except.ok.inj h
    exact .script v
  | dynamic =>
    obtain ⟨d, hd, rfl⟩ := decode_dynamic_eq_ok.mp h
    exact .dynamic hd
  | _ =>
    -- the other types take the values of one kind, whatever they are
    rw [decode_of_isWhole rfl, decodeLeaf, bind_eq_ok] at h
    obtain ⟨part, hpart, hx⟩ := h
    rw [expectPart_eq_ok] at hpart
    rw [← pure_eq_ok.mp hx]
    cases v <;> cases hpart
    constructor

/-! ## Keys -/

/-- Two shapes have members, or stand for script values that are the same. -/
def ScalarsSame (t u : HostTree) : Prop :=
  Option.Rel (fun v w => v.same w = true) t.scalar? u.scalar?

namespace Decodes

variable {t : HostType} {v w s : Value} {x y : HostValue}

/-- What is decoded to something without members is what that stands for. -/
theorem eq_scalar (h : Decodes schema t v x) (hs : x.tree.scalar? = some s) : s = v := by
  induction h with
  | int n => simpa [HostValue.tree, eq_comm] using hs
  | dynamic hd => exact Value.dynamic_eq_scalar hd hs
  | present _ _ ih => exact ih hs
  | pointer _ ih => exact ih hs
  | members _ _ => cases hs
  | packed _ _ => cases hs
  | entries _ => cases hs
  | _ => exact (Option.some.inj hs).symm

/-- Nothing is decoded to a struct. -/
theorem tree_ne_struct (h : Decodes schema t v x) (typeName : String)
    (fields : List (String × HostTree)) : x.tree ≠ .struct typeName fields := by
  induction h with
  | int n =>
    intro htree
    have hscalar := HostTree.scalar?_ofFixed n
    rw [show HostTree.ofFixed n = _ from htree] at hscalar
    cases hscalar
  | dynamic hd => exact Dynamic.tree_ne_struct _ typeName fields
  | present _ _ ih => exact ih
  | pointer _ ih => exact ih
  | _ => simp [HostValue.tree]

/-- Values of one type that are the same were decoded from the same value, unless they have
members. -/
theorem scalars_of_same (hx : Decodes schema t v x) (hy : Decodes schema t w y)
    (h : x.same y = true) : ScalarsSame x.tree y.tree := by
  induction hx generalizing w y with
  | absent t =>
    cases hy with
    | absent => exact .some rfl
    | present _ _ => cases h
  | present _ _ ih =>
    cases hy with
    | absent => cases h
    | present _ hy =>
      have hinner := ih hy (by simpa [HostValue.same] using h)
      exact hinner
  | pointer _ ih =>
    cases hy with
    | pointer hy => exact ih hy h
  | dynamic _ =>
    cases hy with
    | dynamic _ => exact Dynamic.scalars_of_same (by simpa [HostValue.same] using h)
  | members _ _ =>
    cases hy with
    | members _ _ => exact .none
    | packed _ _ => exact .none
  | packed _ _ =>
    cases hy with
    | members _ _ => exact .none
    | packed _ _ => exact .none
  | entries _ =>
    cases hy with
    | entries _ => exact .none
  | int n =>
    cases hy with
    | int m =>
      simp only [HostValue.same, beq_self_eq_true, Bool.true_and, beq_iff_eq] at h
      simp [ScalarsSame, HostValue.tree, Value.same, h]
  | char c =>
    cases hy with
    | char d =>
      simp only [HostValue.same, beq_iff_eq] at h
      simp [ScalarsSame, HostValue.tree, HostTree.scalar?, Value.same, h]
  | _ =>
    cases hy
    exact .some h

/-- The same for values that are equal in the order of their type. -/
theorem scalars_of_compare (ht : t.Ordered) (hx : Decodes schema t v x) (hy : Decodes schema t w y)
    (h : x.compare y = .eq) : ScalarsSame x.tree y.tree := by
  induction ht generalizing v w x y with
  | option _ ih =>
    cases hx with
    | absent =>
      cases hy with
      | absent => exact .some rfl
      | present _ _ => cases h
    | present _ hx =>
      cases hy with
      | absent => cases h
      | present _ hy =>
        have hinner := ih hx hy (by simpa [HostValue.compare] using h)
        exact hinner
  | pointer _ ih =>
    cases hx with
    | pointer hx =>
      cases hy with
      | pointer hy => exact ih hx hy h
  | sequence _ _ _ => cases hx <;> cases hy <;> exact .none
  | sortedMap _ _ _ _ =>
    cases hx
    cases hy
    exact .none
  | int t =>
    cases hx
    cases hy
    simp only [HostValue.compare, Std.compare_eq_iff_eq] at h
    simp [ScalarsSame, HostValue.tree, Value.same, h]
  | char =>
    cases hx
    cases hy
    simp only [HostValue.compare, Std.compare_eq_iff_eq, Char.toNat_inj] at h
    simp [ScalarsSame, HostValue.tree, HostTree.scalar?, Value.same, h]
  | _ =>
    cases hx
    cases hy
    simp only [HostValue.compare, Std.compare_eq_iff_eq] at h
    exact .some (by simp [Value.same, h])

end Decodes

/-! ## Maps -/

/-- Entries whose keys stand for the keys of a dict are all stored, if no key that is stored has
members: keys that have members may be taken for each other though they come from different keys,
but then one of them is stored. -/
theorem StoresByKey.perm_of_scalar_keys {α β : Type} {clash : α → α → Bool}
    {put : List (α × β) → α → β → List (α × β)} {tree : α → HostTree}
    {pairs : List (Value × Value)} {entries : List (α × β)} (h : StoresByKey clash put)
    (good : α → Prop)
    (hclash : ∀ a b, good a → good b → clash a b = true → ScalarsSame (tree a) (tree b))
    (hentries : List.Forall₂ (fun p e => good e.1 ∧ ∀ s, (tree e.1).scalar? = some s → s = p.1)
      pairs entries)
    (hapart : pairs.Pairwise HostTree.KeysApart)
    (hkept : ∀ e ∈ entries.foldl (fun acc e => put acc e.1 e.2) [],
      good e.1 → ∃ s, (tree e.1).scalar? = some s) :
    (entries.foldl (fun acc e => put acc e.1 e.2) []).Perm entries := by
  have hgood : ∀ e ∈ entries, good e.1 := by
    intro e he
    obtain ⟨_, -, hgood, -⟩ := forall₂_exists_left hentries e he
    exact hgood
  have hshared : ∀ a b, good a → good b → clash a b = true →
      ((∃ s, (tree a).scalar? = some s) ↔ ∃ s, (tree b).scalar? = some s) := by
    intro a b ha hb hab
    have hrel := hclash a b ha hb hab
    unfold ScalarsSame at hrel
    generalize (tree a).scalar? = v at hrel ⊢
    generalize (tree b).scalar? = w at hrel ⊢
    cases hrel <;> simp
  have hstored := (h.forall_storeAll_iff (p := good) (fun a b ha hb _ => iff_of_true ha hb)
    (List.nil_append entries ▸ hgood)).mpr hgood
  have hscalar := (h.forall_storeAll_iff hshared (List.nil_append entries ▸ hgood)).mp
    fun e he => hkept e he (hstored e he)
  refine h.storeAll_perm (List.nil_append entries ▸ forall₂_pairwise hentries hapart ?_)
  -- keys without members that are taken for each other come from keys that are the same
  have hnot : ∀ p ∈ pairs, ∀ e ∈ entries, ∀ p' ∈ pairs, ∀ e' ∈ entries,
      (good e.1 ∧ ∀ s, (tree e.1).scalar? = some s → s = p.1) →
      (good e'.1 ∧ ∀ s, (tree e'.1).scalar? = some s → s = p'.1) →
      p.1.same p'.1 = false → clash e.1 e'.1 = false := by
    intro p _ e he p' _ e' he' hp hp' hne
    obtain ⟨s, hs⟩ := hscalar e he
    obtain ⟨s', hs'⟩ := hscalar e' he'
    rw [← Bool.not_eq_true] at hne ⊢
    intro hab
    have hrel := hclash _ _ hp.1 hp'.1 hab
    rw [ScalarsSame, hs, hs', hp.2 s hs, hp'.2 s' hs'] at hrel
    cases hrel with
    | some hsame => exact hne hsame
  intro p hp e he p' hp' e' he' hpe hpe' hne
  exact ⟨hnot p hp e he p' hp' e' he' hpe hpe' hne.1, hnot p' hp' e' he' p hp e he hpe' hpe hne.2⟩

/-- A map keeps all entries of a dict if no key that it keeps has members. -/
theorem MappingKind.collect_perm {kind : MappingKind} {key value : HostType}
    {pairs : List (Value × Value)} {entries : List (HostValue × HostValue)} (hkey : key.Faithful)
    (hordered : kind = .sortedMap → key.Ordered)
    (hentries : List.Forall₂ (DecodesEntry schema key value) pairs entries)
    (hapart : pairs.Pairwise HostTree.KeysApart)
    (hkept : ∀ e ∈ kind.collect entries, (∀ typeName fields, e.1.tree ≠ .struct typeName fields) →
      ∃ s, e.1.tree.scalar? = some s) :
    (kind.collect entries).Perm entries := by
  have hgood : List.Forall₂ (fun p e => (∃ v, Decodes schema key v e.1) ∧
      ∀ s, e.1.tree.scalar? = some s → s = p.1) pairs entries :=
    hentries.imp fun p e he =>
      ⟨⟨p.1, hkey.decodes he.1⟩, fun s hs => (hkey.decodes he.1).eq_scalar hs⟩
  have hsame : ∀ a b, (∃ v, Decodes schema key v a) → (∃ v, Decodes schema key v b) →
      a.same b = true → ScalarsSame a.tree b.tree :=
    fun a b ⟨_, ha⟩ ⟨_, hb⟩ hab => ha.scalars_of_same hb hab
  cases kind with
  | hashMap | orderedMap =>
    exact (Assoc.storesByKey _).perm_of_scalar_keys _ hsame hgood hapart fun e he ⟨_, hgood⟩ =>
      hkept e he hgood.tree_ne_struct
  | sortedMap =>
    have hcompare : ∀ a b, (∃ v, Decodes schema key v a) → (∃ v, Decodes schema key v b) →
        (a.compare b == .eq) = true → ScalarsSame a.tree b.tree :=
      fun a b ⟨_, ha⟩ ⟨_, hb⟩ hab => ha.scalars_of_compare (hordered rfl) hb (by simpa using hab)
    exact (Sorted.storesByKey _).perm_of_scalar_keys _ hcompare hgood hapart
      fun e he ⟨_, hgood⟩ => hkept e he hgood.tree_ne_struct

/-- So does a dynamic map. -/
theorem Dynamic.putAll_perm {pairs : List (Value × Value)} {entries : List (Dynamic × Dynamic)}
    (hentries : List.Forall₂ (fun p e => p.1.dynamic = .ok e.1 ∧ p.2.dynamic = .ok e.2) pairs
      entries)
    (hapart : pairs.Pairwise HostTree.KeysApart)
    (hkept : ∀ e ∈ Assoc.putAll Dynamic.same [] entries, ∃ s, e.1.tree.scalar? = some s) :
    (Assoc.putAll Dynamic.same [] entries).Perm entries :=
  (Assoc.storesByKey _).perm_of_scalar_keys (fun _ => True)
    (fun _ _ _ _ => Dynamic.scalars_of_same)
    (hentries.imp fun _ _ he => ⟨trivial, fun _ => Value.dynamic_eq_scalar he.1⟩) hapart
    fun e he _ => hkept e he

end ScriptBridge
