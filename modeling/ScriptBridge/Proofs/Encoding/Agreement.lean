import ScriptBridge.Proofs.Encoding.Open
import ScriptBridge.Proofs.Value.WellFormed

/-!
# Where the two encoders agree

The open encoder turns floats into the integers they are and sorts the entries of maps. Do the first
beforehand and overlook the second, and it agrees with the strict encoder.

- `HostTree.collapse`: a shape with every float that is an integer replaced by that integer.
- `HostTree.Collapsible`: what the agreement asks of a shape.
- `HostTree.Agree`: values that are the same, and identical where they can be keys. Keys stay
  identical because only leaves are hashable, and leaves are encoded alike.
- `HostTree.Collapsible.simulates`: the simulation, at every depth and in both directions.
- `HostTree.encodeOpen_agrees_encode`: whole values.
-/

namespace ScriptBridge

namespace HostTree

mutual

/-- A shape with every float that is an integer replaced by that integer. Script values stay as they
are, and so do structs, which have no open form. -/
def collapse : HostTree → HostTree
  | float x => match x.integral? with
    | some n => big n
    | none => float x
  | seq items => seq (collapseItems items)
  | map entries => map (collapseEntries entries)
  | nil => nil
  | bool b => bool b
  | signed n => signed n
  | unsigned n => unsigned n
  | big n => big n
  | str s => str s
  | bytes bs => bytes bs
  | struct typeName fields => struct typeName fields
  | callable c => callable c
  | script v => script v
  | unsupported name => unsupported name

def collapseItems : List HostTree → List HostTree
  | [] => []
  | t :: rest => collapse t :: collapseItems rest

def collapseEntries : List (HostTree × HostTree) → List (HostTree × HostTree)
  | [] => []
  | (k, v) :: rest => (collapse k, collapse v) :: collapseEntries rest

end

@[simp] theorem collapseItems_eq_map (items : List HostTree) :
    collapseItems items = items.map collapse :=
  eq_map_of_cons collapseItems rfl fun _ _ => rfl

@[simp] theorem collapseEntries_eq_map (entries : List (HostTree × HostTree)) :
    collapseEntries entries = entries.map fun e => (collapse e.1, collapse e.2) :=
  eq_map_of_cons collapseEntries rfl fun _ _ => rfl

/-- What the agreement of the encoders asks of a shape. -/
structure Collapsible (t : HostTree) : Prop where
  /-- There are no structs, which the open encoder refuses. -/
  noStruct : ∀ typeName fields, ¬ Inside (struct typeName fields) t
  /-- Script values inside are as the operations on containers build them. -/
  wellFormed : ∀ v, Inside (script v) t → v.WellFormed
  /-- No two keys of a map encode to equal values, once floats are collapsed. -/
  keysDiffer : ∀ entries, Inside (map entries) t.collapse → entries.Pairwise fun a b =>
    ∀ k l, encode a.1 .any = .ok k → encode b.1 .any = .ok l → k.same l = false ∧ l.same k = false

namespace Collapsible

theorem item {items : List HostTree} (h : Collapsible (seq items)) :
    ∀ t ∈ items, Collapsible t := fun t ht =>
  { noStruct := fun typeName fields hinside => h.noStruct typeName fields (.item ht hinside)
    wellFormed := fun v hinside => h.wellFormed v (.item ht hinside)
    keysDiffer := fun entries hinside => h.keysDiffer entries <| by
      rw [collapse, collapseItems_eq_map]
      exact .item (List.mem_map_of_mem ht) hinside }

theorem key {entries : List (HostTree × HostTree)} (h : Collapsible (map entries)) :
    ∀ e ∈ entries, Collapsible e.1 := fun e he =>
  { noStruct := fun typeName fields hinside => h.noStruct typeName fields (.key he hinside)
    wellFormed := fun v hinside => h.wellFormed v (.key he hinside)
    keysDiffer := fun entries' hinside => h.keysDiffer entries' <| by
      rw [collapse, collapseEntries_eq_map]
      exact .key (List.mem_map_of_mem he) hinside }

theorem value {entries : List (HostTree × HostTree)} (h : Collapsible (map entries)) :
    ∀ e ∈ entries, Collapsible e.2 := fun e he =>
  { noStruct := fun typeName fields hinside => h.noStruct typeName fields (.value he hinside)
    wellFormed := fun v hinside => h.wellFormed v (.value he hinside)
    keysDiffer := fun entries' hinside => h.keysDiffer entries' <| by
      rw [collapse, collapseEntries_eq_map]
      exact .value (List.mem_map_of_mem he) hinside }

end Collapsible

/-! ## Agreement of values -/

/-- Two values are the same, and identical unless neither can be a key. -/
structure Agree (v w : Value) : Prop where
  same : v.same w = true
  identical : v = w ∨ v.hashable = false ∧ w.hashable = false

namespace Agree

theorem of_eq {v : Value} (h : v.same v = true) : Agree v v := ⟨h, .inl rfl⟩

theorem hashable_iff {v w : Value} (h : Agree v w) : v.hashable = true ↔ w.hashable = true := by
  rcases h.identical with rfl | ⟨hv, hw⟩
  · exact Iff.rfl
  · simp [hv, hw]

theorem eq_of_hashable {v w : Value} (h : Agree v w) (hw : w.hashable = true) : v = w :=
  h.identical.resolve_right fun ⟨_, hw'⟩ => by simp [hw] at hw'

theorem list {vs ws : List Value} (h : List.Forall₂ Agree vs ws) :
    Agree (.list vs) (.list ws) where
  same := by
    rw [Value.same, Value.eachSame_iff]
    exact h.imp fun _ _ => Agree.same
  identical := .inr ⟨rfl, rfl⟩

end Agree

/-- Entries agree when their keys and their values do. -/
def EntryAgree (p q : Value × Value) : Prop := Agree p.1 q.1 ∧ Agree p.2 q.2

theorem hashable_iff_of_agree {pairs pairs' : List (Value × Value)}
    (h : List.Forall₂ EntryAgree pairs pairs') :
    (∀ p ∈ pairs, p.1.hashable = true) ↔ ∀ p ∈ pairs', p.1.hashable = true := by
  constructor
  · intro hall q hq
    obtain ⟨p, hp, hagree⟩ := forall₂_exists_left h q hq
    exact hagree.1.hashable_iff.mp (hall p hp)
  · intro hall p hp
    obtain ⟨q, hq, hagree⟩ := forall₂_exists_right h p hp
    exact hagree.1.hashable_iff.mpr (hall q hq)

/-- The keys of two entries differ, whichever of them is asked for. -/
def KeysApart (p q : Value × Value) : Prop := p.1.same q.1 = false ∧ q.1.same p.1 = false

/-- Dicts of agreeing entries are the same, though one of them stores its entries in another
order. -/
theorem dict_same_of_agree {pairs stored pairs' : List (Value × Value)}
    (h : List.Forall₂ EntryAgree pairs pairs') (hperm : pairs.Perm stored)
    (hhash : ∀ q ∈ pairs', q.1.hashable = true) (hapart : pairs'.Pairwise KeysApart) :
    Value.same (.dict (Assoc.putAll Value.same [] stored))
      (.dict (Assoc.putAll Value.same [] pairs')) = true := by
  have hkeys' : Assoc.KeysDiffer Value.same pairs' := hapart.imp And.right
  have hstored : stored.Pairwise KeysApart := by
    have hpairs : pairs.Pairwise KeysApart :=
      forall₂_pairwise h.flip hapart fun q hq p _ q' hq' p' _ hagree hagree' hne => by
        rw [KeysApart, hagree.1.eq_of_hashable (hhash q hq),
          hagree'.1.eq_of_hashable (hhash q' hq')]
        exact hne
    exact hperm.pairwise hpairs And.symm
  rw [Assoc.putAll_of_keysDiffer (hstored.imp And.right), Assoc.putAll_of_keysDiffer hkeys',
    Value.same, Bool.and_eq_true, Value.entriesWithin_iff]
  -- as many entries, each of which the other dict has under its own key
  refine ⟨by simpa using hperm.length_eq.symm.trans h.length_eq, fun p hp => ?_⟩
  obtain ⟨q, hq, hagree⟩ := forall₂_exists_right h p (hperm.mem_iff.mpr hp)
  have hkey : p.1 = q.1 := hagree.1.eq_of_hashable (hhash q hq)
  have hself : q.1.same q.1 = true := hkey ▸ hagree.1.same
  exact ⟨q, hkey ▸ hkeys'.find?_self hq hself, hagree.2.same⟩

/-! ## The simulation -/

/-- Each of two outcomes is a success when the other is, with agreeing values. -/
def Simulates (x y : Except ConvertError Value) : Prop :=
  (∀ v, x = .ok v → ∃ w, y = .ok w ∧ Agree v w) ∧ ∀ w, y = .ok w → ∃ v, x = .ok v ∧ Agree v w

/-- A leaf is encoded alike, to a value that is the same as itself. -/
theorem simulates_of_eq {x y : Except ConvertError Value} (heq : x = y)
    (hself : ∀ v, x = .ok v → v.same v = true) : Simulates x y := by
  subst heq
  exact ⟨fun v hv => ⟨v, hv, .of_eq (hself v hv)⟩, fun v hv => ⟨v, hv, .of_eq (hself v hv)⟩⟩

variable {depth : Nat}

/-- An entry is simulated when its key and its value are. -/
theorem entry_simulates {e : HostTree × HostTree}
    (hkey : Simulates (openAt e.1 depth) (encodeAt e.1.collapse .any depth))
    (hvalue : Simulates (openAt e.2 depth) (encodeAt e.2.collapse .any depth)) :
    (∀ p, OpensEntry depth e p →
        ∃ q, EncodesEntry depth (e.1.collapse, e.2.collapse) q ∧ EntryAgree p q) ∧
      ∀ q, EncodesEntry depth (e.1.collapse, e.2.collapse) q →
        ∃ p, OpensEntry depth e p ∧ EntryAgree p q := by
  constructor
  · intro p hp
    obtain ⟨k, hk, hkagree⟩ := hkey.1 _ hp.1
    obtain ⟨v, hv, hvagree⟩ := hvalue.1 _ hp.2
    exact ⟨(k, v), ⟨hk, hv⟩, hkagree, hvagree⟩
  · intro q hq
    obtain ⟨k, hk, hkagree⟩ := hkey.2 _ hq.1
    obtain ⟨v, hv, hvagree⟩ := hvalue.2 _ hq.2
    exact ⟨(k, v), ⟨hk, hv⟩, hkagree, hvagree⟩

namespace Collapsible

variable {entries : List (HostTree × HostTree)}

/-- The strictly encoded keys of a collapsed map differ. -/
theorem keysApart {pairs : List (Value × Value)} (h : Collapsible (map entries))
    (hpairs : List.Forall₂ (EncodesEntry depth) (collapseEntries entries) pairs) :
    pairs.Pairwise KeysApart := by
  have hself : Inside (map (collapseEntries entries)) (collapse (map entries)) := by
    rw [collapse]
    exact .self _
  exact forall₂_pairwise hpairs (h.keysDiffer _ hself) fun _ _ _ _ _ _ _ _ hp hq hne =>
    hne _ _ (encode_eq_ok_of_encodeAt hp.1) (encode_eq_ok_of_encodeAt hq.1)

/-- Agreeing entries make agreeing dicts. -/
theorem dict_agree {pairs pairs' : List (Value × Value)} (h : Collapsible (map entries))
    (hpairs' : List.Forall₂ (EncodesEntry depth) (collapseEntries entries) pairs')
    (hagree : List.Forall₂ EntryAgree pairs pairs') (hhash : ∀ q ∈ pairs', q.1.hashable = true) :
    Agree (.dict (Assoc.putAll Value.same [] (pairs.mergeSort Value.entryLe)))
      (.dict (Assoc.putAll Value.same [] pairs')) :=
  ⟨dict_same_of_agree hagree (List.mergeSort_perm _ _).symm hhash (h.keysApart hpairs'),
    .inr ⟨rfl, rfl⟩⟩

/-- **Simulation.** At every depth, each encoder succeeds when the other does, with agreeing
values. -/
theorem simulates {t : HostTree} (h : Collapsible t) (depth : Nat) :
    Simulates (openAt t depth) (encodeAt t.collapse .any depth) := by
  -- members are one level deeper on both sides, so that the guards refuse the same shapes
  induction t generalizing depth with
  | float x =>
    refine simulates_of_eq ?_ fun v hv => ?_
    · rw [collapse, openAt, openNumber]
      cases x.integral? with
      | none => rfl
      | some n => rfl
    · rw [openAt, guardDepth_eq_ok, Except.ok.injEq] at hv
      rw [← hv.2, openNumber]
      cases x.integral? with
      | none => simp [Value.same, Binary.same]
      | some n => simp [Value.same]
  | seq items ih =>
    rw [collapse, collapseItems_eq_map]
    constructor
    · intro v hv
      obtain ⟨hd, vs, hvs, rfl⟩ := openAt_seq_eq_ok.mp hv
      obtain ⟨ws, hws, hagree⟩ := forall₂_transport hvs fun t ht v _ hv =>
        (ih t ht (h.item t ht) (depth + 1)).1 v hv
      exact ⟨_, encodeAt_seq_eq_ok.mpr ⟨hd, ws, List.forall₂_map_left_iff.mpr hws, rfl⟩,
        .list hagree⟩
    · intro w hw
      obtain ⟨hd, ws, hws, rfl⟩ := encodeAt_seq_eq_ok.mp hw
      obtain ⟨vs, hvs, hagree⟩ := forall₂_transport (List.forall₂_map_left_iff.mp hws)
        fun t ht w _ hw => (ih t ht (h.item t ht) (depth + 1)).2 w hw
      exact ⟨_, openAt_seq_eq_ok.mpr ⟨hd, vs, hvs, rfl⟩, .list hagree.flip⟩
  | map entries ih =>
    rw [collapse]
    have hentry := fun e he => entry_simulates ((ih e he).1 (h.key e he) (depth + 1))
      ((ih e he).2 (h.value e he) (depth + 1))
    constructor
    · intro v hv
      obtain ⟨hd, pairs, hpairs, d, hdict, rfl⟩ := openAt_map_eq_ok.mp hv
      obtain ⟨hhash, rfl⟩ := Dict.ofUnsorted_eq_ok.mp hdict
      obtain ⟨pairs', hpairs', hagree⟩ := forall₂_transport hpairs fun e he p _ hp =>
        (hentry e he).1 p hp
      have hstrict := collapseEntries_eq_map entries ▸ List.forall₂_map_left_iff.mpr hpairs'
      have hhash' := (hashable_iff_of_agree hagree).mp hhash
      exact ⟨_, encodeAt_map_eq_ok.mpr ⟨hd, pairs', hstrict, hhash', rfl⟩,
        h.dict_agree hstrict hagree hhash'⟩
    · intro w hw
      obtain ⟨hd, pairs', hstrict, hhash', rfl⟩ := encodeAt_map_eq_ok.mp hw
      have hpairs' := List.forall₂_map_left_iff.mp (collapseEntries_eq_map entries ▸ hstrict)
      obtain ⟨pairs, hpairs, hagree⟩ := forall₂_transport hpairs' fun e he q _ hq =>
        (hentry e he).2 q hq
      have hhash := (hashable_iff_of_agree hagree.flip).mpr hhash'
      exact ⟨_, openAt_map_eq_ok.mpr ⟨hd, pairs, hpairs, _, Dict.ofUnsorted_eq_ok.mpr ⟨hhash, rfl⟩,
        rfl⟩, h.dict_agree hstrict hagree.flip hhash'⟩
  | struct typeName fields _ => exact absurd (.self _) (h.noStruct typeName fields)
  | script v =>
    refine simulates_of_eq rfl fun w hw => ?_
    rw [openAt, guardDepth_eq_ok, Except.ok.injEq] at hw
    exact hw.2 ▸ (h.wellFormed v (.self _)).same_self
  | unsupported name =>
    refine simulates_of_eq rfl fun v hv => ?_
    simp [openAt] at hv
  | _ =>
    refine simulates_of_eq rfl fun v hv => ?_
    rw [openAt, guardDepth_eq_ok, Except.ok.injEq] at hv
    simp [← hv.2, Value.same]

end Collapsible

/-- **The encoders agree.** Once floats are collapsed, each encoder succeeds when the other does,
and their values are the same: the order of dict entries is all that may differ. -/
theorem encodeOpen_agrees_encode {t : HostTree} (h : Collapsible t) :
    ((∃ v, encodeOpen t = .ok v) ↔ ∃ w, encode t.collapse .any = .ok w) ∧
      ∀ v w, encodeOpen t = .ok v → encode t.collapse .any = .ok w → v.same w = true := by
  obtain ⟨hopen, hstrict⟩ := h.simulates 0
  refine ⟨⟨fun ⟨v, hv⟩ => ?_, fun ⟨w, hw⟩ => ?_⟩, fun v w hv hw => ?_⟩
  · obtain ⟨w, hw, -⟩ := hopen v hv
    exact ⟨w, hw⟩
  · obtain ⟨v, hv, -⟩ := hstrict w hw
    exact ⟨v, hv⟩
  · obtain ⟨w', hw', hagree⟩ := hopen v hv
    obtain rfl : w' = w := Except.ok.inj (hw'.symm.trans hw)
    exact hagree.same

/-- A float that becomes an integer key, before the digits of that integer as text. -/
theorem encodeOpen_agrees_encode_one :
    ∃ v w, encodeOpen (map [(str "1", script (.list [])),
        (float (.ofBits .double 0x3ff0000000000000), nil)]) = .ok v ∧
      encode (map [(str "1", script (.list [])), (big 1, nil)]) .any = .ok w ∧
      v.same w = true := by
  have hcollapse : collapse (map [(str "1", script (.list [])),
      (float (.ofBits .double 0x3ff0000000000000), nil)]) =
      map [(str "1", script (.list [])), (big 1, nil)] := rfl
  have hcollapsible : Collapsible (map [(str "1", script (.list [])),
      (float (.ofBits .double 0x3ff0000000000000), nil)]) :=
    { noStruct := fun typeName fields hinside => by
        cases hinside with
        | key h below | value h below =>
          rcases List.mem_pair.mp h with rfl | rfl <;> cases below
      wellFormed := fun v hinside => by
        cases hinside with
        | key h below | value h below =>
          rcases List.mem_pair.mp h with rfl | rfl <;> cases below
          try exact .list nofun
      keysDiffer := fun entries hinside => by
        rw [hcollapse] at hinside
        cases hinside with
        | self =>
          simp [encode, encodeAt, leaf, Target.accepts, Target.kind?, guardDepth]
          decide
        | key h below | value h below =>
          rcases List.mem_pair.mp h with rfl | rfl <;> cases below }
  obtain ⟨hiff, hsame⟩ := encodeOpen_agrees_encode hcollapsible
  rw [hcollapse] at hiff hsame
  have hstrict : encode (map [(str "1", script (.list [])), (big 1, nil)]) .any =
      .ok (.dict [(.text "1", .list []), (.int 1, .null)]) := rfl
  obtain ⟨v, hv⟩ := hiff.mpr ⟨_, hstrict⟩
  exact ⟨v, _, hv, hstrict, hsame v _ hv hstrict⟩

end HostTree

end ScriptBridge
