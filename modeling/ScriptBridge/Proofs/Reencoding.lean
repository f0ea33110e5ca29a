import ScriptBridge.Proofs.Decoding.Faithful
import ScriptBridge.Proofs.Encoding.Reordering
import ScriptBridge.Proofs.Value.Equality

/-!
# From a script to the host and back

What a script value is decoded to encodes to that value again, except that sequences come back as
lists: the host does not remember whether it was given a list, a tuple, a set or bytes.

- `Value.relist`: a value with lists for the sequences that a type opens.
- `Reencodes`: what a host value becomes when its maps are gone through in some order or other.
- `items_agree`, `entries_agree`: lists of members. No entry of a dict is lost on the way, since
  keys that come back had no members.
- `Decodes.agree`, `Value.WellFormed.settles`: one level of a value, and all of it by induction.
- `encode_decode_relist`: whole values.
-/

namespace ScriptBridge

namespace HostType

/-- The type inside options and pointers. -/
def bare : HostType → HostType
  | option t => t.bare
  | pointer t => t.bare
  | t => t

/-- Whether a type takes bytes as items. -/
def takesBytes (t : HostType) : Bool :=
  match t.bare with
  | sequence kind item => kind.takesBytes item
  | _ => false

/-- What a type makes of the items of a sequence, if it opens sequences. -/
def itemType? (t : HostType) : Option HostType :=
  match t.bare with
  | sequence _ item => some item
  | dynamic => some dynamic
  | _ => none

/-- What a type makes of the keys and values of a dict, if it opens dicts. -/
def entryTypes? (t : HostType) : Option (HostType × HostType) :=
  match t.bare with
  | mapping _ key value => some (key, value)
  | dynamic => some (dynamic, dynamic)
  | _ => none

end HostType

namespace Value

mutual

/-- The value with a list in the place of every sequence that a type opens, tuples, sets and packed
bytes alike. What the type keeps as it is stays as it is. -/
def relist : Value → HostType → Value
  | bytes bs, t => if t.takesBytes then list (bs.map fun b => int b.toNat) else bytes bs
  | list items, t =>
    match t.itemType? with
    | some item => list (relistItems items item)
    | none => list items
  | tuple items, t =>
    match t.itemType? with
    | some item => list (relistItems items item)
    | none => tuple items
  | set items, t =>
    match t.itemType? with
    | some item => list (relistItems items item)
    | none => set items
  | dict entries, t =>
    match t.entryTypes? with
    | some (key, value) => dict (relistEntries entries key value)
    | none => dict entries
  | null, _ => null
  | bool b, _ => bool b
  | int n, _ => int n
  | float x, _ => float x
  | text s, _ => text s
  | callable c, _ => callable c
  | record typeName attrs, _ => record typeName attrs

def relistItems : List Value → HostType → List Value
  | [], _ => []
  | v :: rest, item => relist v item :: relistItems rest item

def relistEntries : List (Value × Value) → HostType → HostType → List (Value × Value)
  | [], _, _ => []
  | (k, v) :: rest, key, value => (relist k key, relist v value) :: relistEntries rest key value

end

theorem relistItems_eq_map (items : List Value) (item : HostType) :
    relistItems items item = items.map (relist · item) :=
  eq_map_of_cons (relistItems · item) rfl fun _ _ => rfl

theorem relistEntries_eq_map (entries : List (Value × Value)) (key value : HostType) :
    relistEntries entries key value = entries.map fun e => (e.1.relist key, e.2.relist value) :=
  eq_map_of_cons (relistEntries · key value) rfl fun _ _ => rfl

/-- A type that stands for the type inside it changes nothing. -/
theorem relist_congr {t u : HostType} (h : t.bare = u.bare) (v : Value) :
    v.relist t = v.relist u := by
  have hbytes : t.takesBytes = u.takesBytes := by rw [HostType.takesBytes, h]; rfl
  have hitem : t.itemType? = u.itemType? := by rw [HostType.itemType?, h]; rfl
  have hentry : t.entryTypes? = u.entryTypes? := by rw [HostType.entryTypes?, h]; rfl
  cases v <;> simp only [relist, hbytes, hitem, hentry]

end Value

namespace HostTree

/-- A shape without members is not reordered. -/
theorem Reordered.eq_of_scalar {t t' : HostTree} {s : Value} (h : Reordered t t')
    (hs : t.scalar? = some s) : t' = t := by
  cases h with
  | same => rfl
  | seq _ => cases hs
  | map _ _ => cases hs
  | struct _ => cases hs

/-- What becomes a key had no members before it was reordered, unless it was a struct. -/
theorem Reordered.scalar?_of_hashable {t t' : HostTree} {w : Value} {depth : Nat}
    (h : Reordered t t') (hstruct : ∀ typeName fields, t ≠ .struct typeName fields)
    (hw : encodeAt t' .any depth = .ok w) (hhash : w.hashable = true) : t.scalar? = some w := by
  cases h with
  | same => exact HostTree.scalar?_of_hashable hstruct hw hhash
  | seq _ =>
    obtain ⟨-, vs, -, rfl⟩ := encodeAt_seq_eq_ok.mp hw
    cases hhash
  | map _ _ =>
    obtain ⟨-, pairs, -, -, rfl⟩ := encodeAt_map_eq_ok.mp hw
    cases hhash
  | struct _ => exact absurd rfl (hstruct _ _)

end HostTree

/-! ## Members -/

/-- A host value becomes a script value, whatever order its maps are gone through in. -/
def Reencodes (depth : Nat) (x : HostValue) (w : Value) : Prop :=
  ∃ t, HostTree.Reordered x.tree t ∧ t.encodeAt .any depth = .ok w

/-- A value that every faithful type gives back, relisted. -/
def Settles (schema : Schema) (v : Value) : Prop :=
  ∀ {t x depth w}, HostType.Faithful t → decode schema v t = .ok x → Reencodes depth x w →
    HostTree.Agree w (v.relist t) ∧ (v.relist t).WellFormed

variable {schema : Schema} {depth : Nat} {v w : Value} {t : HostTree}

/-- Items that settle make a list that does. -/
theorem items_agree {vs : List Value} {xs : List HostValue} {item : HostType}
    (hvs : ∀ v ∈ vs, Settles schema v) (hitem : item.Faithful)
    (hxs : List.Forall₂ (fun v x => decode schema v item = .ok x) vs xs)
    (ht : HostTree.Reordered (.seq (xs.map HostValue.tree)) t)
    (hw : t.encodeAt .any depth = .ok w) :
    HostTree.Agree w (.list (Value.relistItems vs item)) ∧
      (Value.list (Value.relistItems vs item)).WellFormed := by
  obtain ⟨items', rfl, hitems⟩ := ht.seq_inv
  obtain ⟨-, ws, hws, rfl⟩ := HostTree.encodeAt_seq_eq_ok.mp hw
  have hreencodes : List.Forall₂ (Reencodes (depth + 1)) xs ws :=
    forall₂_comp (List.forall₂_map_left_iff.mp hitems) hws
  have hagree : List.Forall₂
      (fun v w => HostTree.Agree w (v.relist item) ∧ (v.relist item).WellFormed) vs ws :=
    forall₂_imp_of_mem (forall₂_comp hxs hreencodes) fun v hv w _ ⟨_, hx, hw⟩ =>
      hvs v hv hitem hx hw
  rw [Value.relistItems_eq_map]
  refine ⟨.list (List.forall₂_map_right_iff.mpr (hagree.flip.imp fun _ _ h => h.1)), .list ?_⟩
  intro u hu
  obtain ⟨v, hv, rfl⟩ := List.mem_map.mp hu
  obtain ⟨w, -, h⟩ := forall₂_exists_right hagree v hv
  exact h.2

/-- Keys of a well-formed dict differ, whichever of them is asked for. -/
theorem Value.WellFormed.keysApart {pairs : List (Value × Value)}
    (h : (Value.dict pairs).WellFormed) : pairs.Pairwise HostTree.KeysApart := by
  cases h with
  | dict hkeys _ _ hdiffer => exact Value.pairwise_apart_of_keysDiffer hdiffer hkeys

/-- Entries that settle make a dict that does, if the map has kept them all as soon as its keys have
no members. -/
theorem entries_agree {pairs : List (Value × Value)} {entries kept : List (HostValue × HostValue)}
    {key value : HostType} (hpairs : ∀ p ∈ pairs, Settles schema p.1 ∧ Settles schema p.2)
    (hdict : (Value.dict pairs).WellFormed) (hkey : key.Faithful) (hvalue : value.Faithful)
    (hentries : List.Forall₂ (DecodesEntry schema key value) pairs entries)
    (hkept : (∀ e ∈ kept, (∀ typeName fields, e.1.tree ≠ .struct typeName fields) →
      ∃ s, e.1.tree.scalar? = some s) → kept.Perm entries)
    (ht : HostTree.Reordered (.map (kept.map fun e => (e.1.tree, e.2.tree))) t)
    (hw : t.encodeAt .any depth = .ok w) :
    HostTree.Agree w (.dict (Value.relistEntries pairs key value)) ∧
      (Value.dict (Value.relistEntries pairs key value)).WellFormed := by
  obtain ⟨middle, entries', rfl, hmiddle, hperm⟩ := ht.map_inv
  obtain ⟨-, pairs', hpairs', hhash, rfl⟩ := HostTree.encodeAt_map_eq_ok.mp hw
  -- what is stored in the end, in the order in which the map was gone through before
  obtain ⟨stored, hstored, hstoredperm⟩ := List.perm_comp_forall₂ hperm hpairs'
  have hreencodes : List.Forall₂
      (fun e p => Reencodes (depth + 1) e.1 p.1 ∧ Reencodes (depth + 1) e.2 p.2) kept stored :=
    (forall₂_comp (List.forall₂_map_left_iff.mp hmiddle) hstored).imp
      fun _ _ ⟨_, hre, henc⟩ => ⟨⟨_, hre.1, henc.1⟩, ⟨_, hre.2, henc.2⟩⟩
  have hkeptperm : kept.Perm entries := hkept fun e he hstruct => by
    obtain ⟨p, hp, ⟨k, hk, henc⟩, -⟩ := forall₂_exists_right hreencodes e he
    exact ⟨_, hk.scalar?_of_hashable hstruct henc (hhash p (hstoredperm.mem_iff.mp hp))⟩
  obtain ⟨stored', hstored', hstoredperm'⟩ := List.perm_comp_forall₂ hkeptperm.symm hreencodes
  have hperm' : stored'.Perm pairs' := hstoredperm'.trans hstoredperm
  -- entry by entry: the key comes back as it is, and the value relisted
  have hreturned : List.Forall₂ (fun p q => p.1.relist key = p.1 ∧
      HostTree.EntryAgree q (p.1, p.2.relist value) ∧ (p.2.relist value).WellFormed)
      pairs stored' := by
    refine forall₂_imp_of_mem (forall₂_comp hentries hstored') fun p hp q hq ⟨e, he, hk, hv⟩ => ?_
    have hdecodes := hkey.decodes he.1
    have hq : q.1.hashable = true := hhash q (hperm'.mem_iff.mp hq)
    obtain ⟨k, hre, henc⟩ := hk
    have hqp : q.1 = p.1 :=
      hdecodes.eq_scalar (hre.scalar?_of_hashable hdecodes.tree_ne_struct henc hq)
    obtain ⟨hkagree, -⟩ := (hpairs p hp).1 hkey he.1 ⟨k, hre, henc⟩
    obtain ⟨hvagree, hvalid⟩ := (hpairs p hp).2 hvalue he.2 hv
    have hkeep : p.1.relist key = p.1 :=
      (hkagree.eq_of_hashable (hkagree.hashable_iff.mp hq)).symm.trans hqp
    exact ⟨hkeep, ⟨hkeep ▸ hkagree, hvagree⟩, hvalid⟩
  have hrelisted : Value.relistEntries pairs key value =
      pairs.map fun p => (p.1, p.2.relist value) := by
    rw [Value.relistEntries_eq_map]
    refine List.map_congr_left fun p hp => ?_
    obtain ⟨q, -, hkeep, -⟩ := forall₂_exists_right hreturned p hp
    rw [hkeep]
  have hapart : (pairs.map fun p => (p.1, p.2.relist value)).Pairwise HostTree.KeysApart :=
    List.pairwise_map.mpr hdict.keysApart
  rw [hrelisted]
  cases hdict with
  | dict hwkeys _ hwhash _ =>
    refine ⟨⟨?_, .inr ⟨rfl, rfl⟩⟩, .dict ?_ ?_ ?_ (hapart.imp And.right)⟩
    · have hagree := List.forall₂_map_right_iff.mpr (hreturned.flip.imp fun _ _ h => h.2.1)
      have hsame :=
        HostTree.dict_same_of_agree hagree hperm' (List.forall_mem_map.mpr hwhash) hapart
      rwa [Assoc.putAll_of_keysDiffer (hapart.imp And.right)] at hsame
    · exact List.forall_mem_map.mpr hwkeys
    · refine List.forall_mem_map.mpr fun p hp => ?_
      obtain ⟨q, -, -, -, hvalid⟩ := forall₂_exists_right hreturned p hp
      exact hvalid
    · exact List.forall_mem_map.mpr hwhash

/-! ## Whole values -/

/-- What is decoded to something without members comes back as it is. -/
theorem Reencodes.eq_of_scalar {x : HostValue} (h : Reencodes depth x w)
    (hs : x.tree.scalar? = some v) : w = v := by
  obtain ⟨t, hre, hw⟩ := h
  rw [hre.eq_of_scalar hs] at hw
  exact ((HostTree.encodeAt_of_scalar hs).mp hw).2

theorem Reencodes.agree_of_scalar {x : HostValue} (h : Reencodes depth x w) (hv : v.WellFormed)
    (hs : x.tree.scalar? = some v) : HostTree.Agree w v ∧ v.WellFormed := by
  rw [h.eq_of_scalar hs]
  exact ⟨.of_eq hv.same_self, hv⟩

/-- Bytes that were taken as items come back as a list of numbers. -/
theorem Reencodes.eq_of_bytes {kind : SequenceKind} {bs : List UInt8}
    (h : Reencodes depth (.sequence kind (bs.map .ofByte)) w) :
    w = .list (bs.map fun b => .int b.toNat) := by
  obtain ⟨t, hre, hw⟩ := h
  rw [HostValue.tree, HostValue.itemTrees_eq_map] at hre
  obtain ⟨items', rfl, hitems⟩ := hre.seq_inv
  obtain ⟨-, ws, hws, rfl⟩ := HostTree.encodeAt_seq_eq_ok.mp hw
  rw [List.map_map, List.forall₂_map_left_iff] at hitems
  have hbytes : List.Forall₂ (fun b w => Value.int b.toNat = w) bs ws :=
    (forall₂_comp hitems hws).imp fun b w hb =>
      (Reencodes.eq_of_scalar (x := .ofByte b) hb (HostTree.scalar?_ofFixed _)).symm
  have heq : bs.map (fun b => Value.int b.toNat) = ws :=
    (congrFun₂ List.forall₂_eq_eq_eq _ _).mp (List.forall₂_map_left_iff.mpr hbytes)
  rw [heq]

/-- A dynamic value comes back as a list or a dict if it has members, and as it is if not. -/
theorem dynamic_agree {d : Dynamic} (hd : v.dynamic = .ok d) (hv : v.WellFormed)
    (hmembers : ∀ vs, v.members? = some vs → ∀ u ∈ vs, Settles schema u)
    (hentries : ∀ pairs, v = .dict pairs → ∀ p ∈ pairs, Settles schema p.1 ∧ Settles schema p.2)
    (h : Reencodes depth (.dynamic d) w) :
    HostTree.Agree w (v.relist .dynamic) ∧ (v.relist .dynamic).WellFormed := by
  have hitems {container : Kind} {vs : List Value} {ds : List Dynamic}
      (hds : Value.dynamicItems container vs 0 = .ok ds) (hvs : ∀ u ∈ vs, Settles schema u)
      (h : Reencodes depth (.dynamic (.list ds)) w) :
      HostTree.Agree w (.list (Value.relistItems vs .dynamic)) ∧
        (Value.list (Value.relistItems vs .dynamic)).WellFormed := by
    obtain ⟨t, hre, hw⟩ := h
    rw [HostValue.tree, Dynamic.tree, Dynamic.itemTrees_eq_map] at hre
    have hxs : List.Forall₂ (fun v x => decode schema v .dynamic = .ok x) vs
        (ds.map HostValue.dynamic) :=
      List.forall₂_map_right_iff.mpr ((Value.dynamicItems_eq_ok.mp hds).imp fun _ _ hd =>
        decode_dynamic_eq_ok.mpr ⟨_, hd, rfl⟩)
    exact items_agree hvs .dynamic hxs (by rwa [List.map_map]) hw
  cases v with
  | list vs | tuple vs | set vs =>
    obtain ⟨ds, hds, hd⟩ := bind_eq_ok.mp hd
    rw [← pure_eq_ok.mp hd] at h
    exact hitems hds (hmembers _ rfl) h
  | dict pairs =>
    obtain ⟨entries, hds, hd⟩ := bind_eq_ok.mp hd
    rw [← pure_eq_ok.mp hd] at h
    obtain ⟨t, hre, hw⟩ := h
    rw [HostValue.tree, Dynamic.ofEntries, Dynamic.tree, Dynamic.entryTrees_eq_map] at hre
    have hpairs := Value.dynamicEntries_eq_ok.mp hds
    -- the entries of a dynamic map as entries of a map of dynamic values
    let lift (e : Dynamic × Dynamic) : HostValue × HostValue := (.dynamic e.1, .dynamic e.2)
    have hdecodes : List.Forall₂ (DecodesEntry schema .dynamic .dynamic) pairs
        (entries.map lift) :=
      List.forall₂_map_right_iff.mpr (hpairs.imp fun p e he =>
        ⟨decode_dynamic_eq_ok.mpr ⟨e.1, he.1, rfl⟩, decode_dynamic_eq_ok.mpr ⟨e.2, he.2, rfl⟩⟩)
    have hkept (hkeys : ∀ e ∈ (Assoc.putAll Dynamic.same [] entries).map lift,
        (∀ typeName fields, e.1.tree ≠ .struct typeName fields) →
          ∃ s, e.1.tree.scalar? = some s) :
        ((Assoc.putAll Dynamic.same [] entries).map lift).Perm (entries.map lift) :=
      (Dynamic.putAll_perm hpairs hv.keysApart fun e he =>
        hkeys (lift e) (List.mem_map_of_mem he) e.1.tree_ne_struct).map lift
    exact entries_agree (hentries pairs rfl) hv .dynamic .dynamic hdecodes hkept
      (by rwa [List.map_map]) hw
  | int n =>
    rcases Value.dynamicInt_eq_ok.mp hd with ⟨hn, rfl⟩ | ⟨-, hn, rfl⟩
    · exact h.agree_of_scalar hv rfl
    · exact h.agree_of_scalar hv rfl
  | callable | record => cases hd
  | _ =>
    obtain rfl := Except.ok.inj hd
    exact h.agree_of_scalar hv rfl

/-- What a value is decoded to comes back relisted when the members of the value do. -/
theorem Decodes.agree {t : HostType} {x : HostValue} (hx : Decodes schema t v x) (ht : t.Faithful)
    (hv : v.WellFormed) (hmembers : ∀ vs, v.members? = some vs → ∀ u ∈ vs, Settles schema u)
    (hentries : ∀ pairs, v = .dict pairs → ∀ p ∈ pairs, Settles schema p.1 ∧ Settles schema p.2)
    (h : Reencodes depth x w) : HostTree.Agree w (v.relist t) ∧ (v.relist t).WellFormed := by
  induction hx with
  | absent t => exact h.agree_of_scalar hv rfl
  | @present t v x hnull _ ih =>
    cases ht with
    | option ht =>
      rw [Value.relist_congr (t := .option t) (u := t) rfl]
      exact ih ht hv hmembers hentries h
  | @pointer t v x _ ih =>
    cases ht with
    | pointer ht =>
      rw [Value.relist_congr (t := .pointer t) (u := t) rfl]
      exact ih ht hv hmembers hentries h
  | dynamic hd => exact dynamic_agree hd hv hmembers hentries h
  | @members kind item v vs xs hvs hxs =>
    cases ht with
    | sequence _ hitem =>
      obtain ⟨t, hre, hw⟩ := h
      rw [HostValue.tree, HostValue.itemTrees_eq_map] at hre
      have hagree := items_agree (hmembers vs hvs) hitem hxs hre hw
      cases v <;> cases hvs
      all_goals exact hagree
  | packed hpacked bs =>
    have hrelist : (Value.bytes bs).relist (.sequence _ _) = .list (bs.map fun b => .int b.toNat) :=
      if_pos hpacked
    have hlist : (Value.list (bs.map fun b => .int b.toNat)).WellFormed :=
      .list (List.forall_mem_map.mpr fun b _ => .int _)
    rw [h.eq_of_bytes, hrelist]
    exact ⟨.of_eq hlist.same_self, hlist⟩
  | entries hpairs =>
    cases ht with
    | mapping hkey hvalue hordered =>
      obtain ⟨t, hre, hw⟩ := h
      rw [HostValue.tree, HostValue.entryTrees_eq_map] at hre
      exact entries_agree (hentries _ rfl) hv hkey hvalue hpairs
        (MappingKind.collect_perm hkey hordered hpairs hv.keysApart) hre hw
  | int n => exact h.agree_of_scalar hv (HostTree.scalar?_ofFixed n)
  | script v =>
    have hwhole : v.relist .script = v := by cases v <;> rfl
    rw [hwhole]
    exact h.agree_of_scalar hv rfl
  | _ => exact h.agree_of_scalar hv rfl

/-- A value settles when its members do. -/
theorem settles_of_members (hv : v.WellFormed)
    (hmembers : ∀ vs, v.members? = some vs → ∀ u ∈ vs, Settles schema u)
    (hentries : ∀ pairs, v = .dict pairs → ∀ p ∈ pairs, Settles schema p.1 ∧ Settles schema p.2) :
    Settles schema v := by
  intro t x depth w ht hx h
  exact (ht.decodes hx).agree ht hv hmembers hentries h

/-- Every well-formed value settles. -/
theorem Value.WellFormed.settles (hv : v.WellFormed) : Settles schema v := by
  induction v with
  | list items ih =>
    refine settles_of_members hv (fun vs hvs u hu => ?_) nofun
    obtain rfl := Option.some.inj hvs
    cases hv with
    | list h => exact ih u hu (h u hu)
  | tuple items ih =>
    refine settles_of_members hv (fun vs hvs u hu => ?_) nofun
    obtain rfl := Option.some.inj hvs
    cases hv with
    | tuple h => exact ih u hu (h u hu)
  | set items ih =>
    refine settles_of_members hv (fun vs hvs u hu => ?_) nofun
    obtain rfl := Option.some.inj hvs
    exact ih u hu ((Value.separate_of_set hv).1 u hu)
  | dict entries ih =>
    refine settles_of_members hv nofun fun pairs hpairs p hp => ?_
    obtain rfl := Value.dict.inj hpairs
    have hgood := (Value.soundMap_of_dict hv).1 p hp
    exact ⟨(ih p hp).1 hgood.1, (ih p hp).2 hgood.2⟩
  | _ => exact settles_of_members hv nofun nofun

/-- **Nothing is lost but the kind of sequence.** What a well-formed value is decoded to, in a
faithful type, encodes to the value with a list in the place of every sequence that the type opened:
no entry of a dict is lost or merged, and the dict stays well formed. The order in which the
host goes through its maps does not matter. -/
theorem encode_decode_relist {schema : Schema} {v w : Value} {t : HostType} {x : HostValue}
    {tree : HostTree} (ht : t.Faithful) (hv : v.WellFormed) (hx : decode schema v t = .ok x)
    (htree : HostTree.Reordered x.tree tree) (hw : encode tree .any = .ok w) :
    w.same (v.relist t) = true ∧ (v.relist t).WellFormed := by
  obtain ⟨hagree, hvalid⟩ := hv.settles ht hx ⟨tree, htree, hw⟩
  exact ⟨hagree.same, hvalid⟩

/-- A dict of bytes and of a tuple, in a hash map that is gone through in another order. -/
theorem encode_decode_relist_hashMap :
    let t : HostType := .mapping .hashMap .string (.sequence .vector (.int .byte))
    let v : Value := .dict [(.text "b", .bytes [1, 2]), (.text "a", .tuple [.int 3])]
    let x : HostValue := .mapping .hashMap
      [(.string "b", .sequence .vector [.ofByte 1, .ofByte 2]),
        (.string "a", .sequence .vector [.ofByte 3])]
    let tree : HostTree := .map
      [(.str "a", .seq [.unsigned 3]), (.str "b", .seq [.unsigned 1, .unsigned 2])]
    let w : Value := .dict
      [(.text "a", .list [.int 3]), (.text "b", .list [.int 1, .int 2])]
    v.WellFormed ∧ decode .empty v t = .ok x ∧ HostTree.Reordered x.tree tree ∧
      encode tree .any = .ok w ∧ w.same (v.relist t) = true ∧ (v.relist t).WellFormed := by
  intro t v x tree w
  have ht : t.Faithful := .mapping .string (.sequence rfl (.int .byte)) nofun
  have hv : v.WellFormed := by
    refine .dict ?_ ?_ ?_ ?_
    · simp [Value.WellFormed.text]
    · simp [Value.WellFormed.bytes]
      exact .tuple (by simp [Value.WellFormed.int])
    · simp [Value.hashable]
    · simp [Assoc.KeysDiffer, Value.same]
  have hx : decode .empty v t = .ok x := rfl
  have htree : HostTree.Reordered x.tree tree :=
    .map (.cons (.same _) (.same _) (.cons (.same _) (.same _) .nil)) (.swap _ _ _)
  have hw : encode tree .any = .ok w := rfl
  exact ⟨hv, hx, htree, hw, encode_decode_relist ht hv hx htree hw⟩

end ScriptBridge
