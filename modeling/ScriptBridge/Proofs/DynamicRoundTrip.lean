import ScriptBridge.Proofs.Decoding.Dynamic
import ScriptBridge.Proofs.Encoding.Domain

/-!
# From a script to a dynamic value and back

A dynamic value does not tell a tuple from a list, so that a dict with a tuple as a key is decoded
but cannot be sent back. That and depth are all that can go wrong, and what is sent back is decoded
to the same dynamic value again.

- `Value.dynamic_dict_eq_ok`: no two keys of a dict become one.
- `Value.WellFormed.dynamic_members`: nor do any other members get lost.
- `DecodedShape`: the shape of a decoded value. Its parts are those of the script value, since
  `DecodedShape.members` says so of members.
- `Value.dynamic_of_encodeAt`: what is sent back is decoded to the same dynamic value.
- `Value.key_ne_tuple_of_encode`, `Value.nestedWithin_of_encode`, `Value.encode_of_keys`: the two
  conditions for that are needed, and are enough.
- `Value.WellFormed.encode_dynamic_iff`: when a decoded value can be sent back.
-/

namespace ScriptBridge

variable {v : Value} {d : Dynamic} {t : HostTree}

namespace Value

/-! ## Dicts -/

/-- An entry of a dict is decoded to an entry of a map. -/
def DecodesEntry (p : Value × Value) (e : Dynamic × Dynamic) : Prop :=
  p.1.dynamic = .ok e.1 ∧ p.2.dynamic = .ok e.2

variable {pairs : List (Value × Value)} {entries : List (Dynamic × Dynamic)}

/-- Keys differ before they are decoded exactly when they do after it. -/
theorem keysDiffer_dynamic (h : List.Forall₂ DecodesEntry pairs entries)
    (hhash : ∀ p ∈ pairs, p.1.hashable = true) :
    Assoc.KeysDiffer Dynamic.same entries ↔ Assoc.KeysDiffer same pairs := by
  constructor
  · intro hdiffer
    refine forall₂_pairwise h.flip hdiffer fun e _ p hp e' _ p' hp' he he' hne => ?_
    rwa [← dynamic_same (hhash p' hp') (hhash p hp) he'.1 he.1]
  · intro hdiffer
    refine forall₂_pairwise h hdiffer fun p hp e _ p' hp' e' _ he he' hne => ?_
    rwa [dynamic_same (hhash p' hp') (hhash p hp) he'.1 he.1]

/-- Entries of a dict become entries of the map, one by one: no two keys become one. -/
theorem dynamic_dict_eq_ok (hhash : ∀ p ∈ pairs, p.1.hashable = true)
    (hdiffer : Assoc.KeysDiffer same pairs) :
    (dict pairs).dynamic = .ok d ↔
      ∃ entries, List.Forall₂ DecodesEntry pairs entries ∧ d = .map entries := by
  have hkept {entries : List (Dynamic × Dynamic)} (h : List.Forall₂ DecodesEntry pairs entries) :
      Dynamic.ofEntries entries = .map entries :=
    congrArg Dynamic.map (Assoc.putAll_of_keysDiffer ((keysDiffer_dynamic h hhash).mpr hdiffer))
  simp only [dynamic, bind_eq_ok, pure_eq_ok, dynamicEntries_eq_ok]
  constructor
  · rintro ⟨entries, hentries, rfl⟩
    exact ⟨entries, hentries, hkept hentries⟩
  · rintro ⟨entries, hentries, rfl⟩
    exact ⟨entries, hentries, hkept hentries⟩

/-- Of a well-formed dict. -/
theorem WellFormed.dynamic_dict (h : (Value.dict pairs).WellFormed)
    (hd : (Value.dict pairs).dynamic = .ok d) :
    ∃ entries, List.Forall₂ DecodesEntry pairs entries ∧ d = .map entries := by
  cases h with
  | dict _ _ hhash hdiffer => exact (dynamic_dict_eq_ok hhash hdiffer).mp hd

/-- The members of a decoded value come from the members of the value, keys included. -/
theorem WellFormed.dynamic_members (hv : v.WellFormed) (hd : v.dynamic = .ok d) :
    List.Forall₂ (fun u e => u.dynamic = .ok e) v.members d.members := by
  cases v with
  | list items | tuple items | set items =>
    obtain ⟨ds, hds, hd⟩ := bind_eq_ok.mp hd
    obtain rfl := pure_eq_ok.mp hd
    exact dynamicItems_eq_ok.mp hds
  | dict pairs =>
    obtain ⟨entries, hentries, rfl⟩ := hv.dynamic_dict hd
    exact forall₂_keysAndValues hentries
  | callable | record => cases hd
  | int n =>
    rcases dynamicInt_eq_ok.mp hd with ⟨hn, rfl⟩ | ⟨-, hn, rfl⟩
    · exact .nil
    · exact .nil
  | _ =>
    cases hd
    exact .nil

end Value

/-- The members of a shape are the shapes of the members. -/
theorem Dynamic.members_tree (d : Dynamic) : d.tree.members = d.members.map tree := by
  cases d with
  | list items => exact itemTrees_eq_map items
  | map entries =>
    rw [tree, entryTrees_eq_map]
    exact keysAndValues_map tree
  | _ => rfl

/-! ## The shape of a decoded value -/

/-- A shape is that of the dynamic value that a well-formed value is decoded to. -/
def DecodedShape (v : Value) (t : HostTree) : Prop :=
  v.WellFormed ∧ ∃ d, v.dynamic = .ok d ∧ d.tree = t

namespace DecodedShape

/-- The members of the shape come from the members of the value, keys included. -/
theorem members (h : DecodedShape v t) : List.Forall₂ DecodedShape v.members t.members := by
  obtain ⟨hv, d, hd, rfl⟩ := h
  rw [d.members_tree]
  exact List.forall₂_map_right_iff.mpr (forall₂_imp_of_mem (hv.dynamic_members hd)
    fun u hu e _ he => ⟨hv.of_mem_members u hu, e, he, rfl⟩)

/-- Each part of the value has its counterpart in the shape, at the same depth. -/
theorem part {n : Nat} {u : Value} (h : DecodedShape v t) (hpart : Part Value.members n u v) :
    ∃ s, Part HostTree.members n s t ∧ DecodedShape u s :=
  hpart.transport (fun _ _ => members) h

/-- Each part of the shape has its counterpart in the value, at the same depth. -/
theorem part_of_shape {n : Nat} {s : HostTree} (h : DecodedShape v t)
    (hpart : Part HostTree.members n s t) :
    ∃ u, Part Value.members n u v ∧ DecodedShape u s :=
  hpart.transport (r := fun t v => DecodedShape v t) (fun _ _ h => h.members.flip) h

/-- A map is the shape of a dict. -/
theorem of_map {entries : List (HostTree × HostTree)} (h : DecodedShape v (.map entries)) :
    ∃ pairs, v = .dict pairs ∧ ∀ entry ∈ entries, ∃ p ∈ pairs, ∃ k,
      p.1.hashable = true ∧ p.1.dynamic = .ok k ∧ entry.1 = k.tree := by
  obtain ⟨hv, d, hd, htree⟩ := h
  cases v with
  | dict pairs =>
    obtain ⟨es, hes, rfl⟩ := hv.dynamic_dict hd
    rw [Dynamic.tree, Dynamic.entryTrees_eq_map] at htree
    obtain rfl := HostTree.map.inj htree
    refine ⟨pairs, rfl, List.forall_mem_map.mpr fun e he => ?_⟩
    obtain ⟨p, hp, hentry⟩ := forall₂_exists_left hes e he
    cases hv with
    | dict _ _ hhash _ => exact ⟨p, hp, e.1, hhash p hp, hentry.1, rfl⟩
  | list | tuple | set =>
    obtain ⟨ds, -, hd⟩ := bind_eq_ok.mp hd
    obtain rfl := pure_eq_ok.mp hd
    cases htree
  | callable | record => cases hd
  | int n => rcases Value.dynamicInt_eq_ok.mp hd with ⟨hn, rfl⟩ | ⟨-, hn, rfl⟩ <;> cases htree
  | _ =>
    cases hd
    cases htree

end DecodedShape

/-! ## Sending back -/

namespace Value

/-- What is sent back is decoded to what it comes from. -/
theorem dynamic_of_encodeAt {depth : Nat} {w : Value} (hv : v.WellFormed)
    (hd : v.dynamic = .ok d) (hw : d.tree.encodeAt .any depth = .ok w) : w.dynamic = .ok d := by
  induction v generalizing d depth w with
  | list items ih | tuple items ih | set items ih =>
    obtain ⟨ds, hds, hd⟩ := bind_eq_ok.mp hd
    obtain rfl := pure_eq_ok.mp hd
    rw [Dynamic.tree, Dynamic.itemTrees_eq_map] at hw
    obtain ⟨-, ws, hws, rfl⟩ := HostTree.encodeAt_seq_eq_ok.mp hw
    have hback : List.Forall₂ (fun d w => w.dynamic = .ok d) ds ws :=
      forall₂_imp_of_mem (List.forall₂_map_left_iff.mp hws) fun d hd w _ hw => by
        obtain ⟨v, hmem, hdecode⟩ := forall₂_exists_left (dynamicItems_eq_ok.mp hds) d hd
        exact ih v hmem (hv.of_mem_members v hmem) hdecode hw
    rw [dynamic, dynamicItems_eq_ok.mpr hback.flip]
    rfl
  | dict pairs ih =>
    obtain ⟨entries, hentries, rfl⟩ := hv.dynamic_dict hd
    rw [Dynamic.tree, Dynamic.entryTrees_eq_map] at hw
    obtain ⟨-, stored, hstored, hhash', rfl⟩ := HostTree.encodeAt_map_eq_ok.mp hw
    have hback : List.Forall₂ DecodesEntry stored entries :=
      (forall₂_imp_of_mem (List.forall₂_map_left_iff.mp hstored) fun e he q _ hq => by
        obtain ⟨p, hp, hk, hvalue⟩ := forall₂_exists_left hentries e he
        have hwell := hv.of_mem_members
        exact ⟨(ih p hp).1 (hwell _ (key_mem_keysAndValues hp)) hk hq.1,
          (ih p hp).2 (hwell _ (value_mem_keysAndValues hp)) hvalue hq.2⟩).flip
    cases hv with
    | dict _ _ hhash hdiffer =>
      -- keys differ in the value, so in the map, so in the dict that is built from it
      have hstored' : Assoc.KeysDiffer same stored :=
        (keysDiffer_dynamic hback hhash').mp ((keysDiffer_dynamic hentries hhash).mpr hdiffer)
      rw [Assoc.putAll_of_keysDiffer hstored']
      exact (dynamic_dict_eq_ok hhash' hstored').mpr ⟨entries, hback, rfl⟩
  | callable | record => cases hd
  | _ =>
    rcases dynamic_of_hashable rfl hd with ⟨_, _, h, -⟩ | hscalar
    · cases h
    · rwa [((HostTree.encodeAt_of_scalar hscalar).mp hw).2]

/-- A tuple comes back as a list, which cannot be a key. -/
theorem hashable_ne_true_of_tuple {depth : Nat} {w : Value} (hv : v.kind = .tuple)
    (hd : v.dynamic = .ok d) (hw : d.tree.encodeAt .any depth = .ok w) : w.hashable ≠ true := by
  cases v with
  | tuple items =>
    obtain ⟨ds, -, hd⟩ := bind_eq_ok.mp hd
    obtain rfl := pure_eq_ok.mp hd
    obtain ⟨-, ws, -, rfl⟩ := HostTree.encodeAt_seq_eq_ok.mp hw
    exact nofun
  | _ => cases hv

/-- What can be sent back has no tuple as a key. -/
theorem key_ne_tuple_of_encode {w : Value} (h : DecodedShape v t) (hw : encode t .any = .ok w)
    {n : Nat} {pairs : List (Value × Value)} (hpart : Part members n (dict pairs) v) :
    ∀ p ∈ pairs, p.1.kind ≠ .tuple := by
  intro p hp hkind
  obtain ⟨s, hs, hwell, d, hd, rfl⟩ := h.part hpart
  obtain ⟨entries, hentries, rfl⟩ := hwell.dynamic_dict hd
  obtain ⟨e, he, hk, -⟩ := forall₂_exists_right hentries p hp
  obtain ⟨_, hencoded⟩ := HostTree.encodeAt_part hs hw
  rw [Dynamic.tree, Dynamic.entryTrees_eq_map] at hencoded
  obtain ⟨-, stored, hstored, hhash, -⟩ := HostTree.encodeAt_map_eq_ok.mp hencoded
  obtain ⟨q, hq, hkey, -⟩ := forall₂_exists_right (List.forall₂_map_left_iff.mp hstored) e he
  exact hashable_ne_true_of_tuple hkind hk hkey (hhash q hq)

/-- What can be sent back is not too deep, as the shape has the depth of the value. -/
theorem nestedWithin_of_encode {w : Value} (h : DecodedShape v t) (hw : encode t .any = .ok w) :
    NestedWithin members maxDepth v := by
  intro n u hpart
  obtain ⟨s, hs, -⟩ := h.part hpart
  exact HostTree.nestedWithin_of_encode hw n s hs

/-- Without tuples as keys, depth is the only fault that is left. -/
theorem encode_of_keys (h : DecodedShape v t)
    (hkeys : ∀ n pairs, Part members n (dict pairs) v → ∀ p ∈ pairs, p.1.kind ≠ .tuple)
    (hwithin : NestedWithin members maxDepth v) : ∃ w, encode t .any = .ok w := by
  rcases ok_or_error (encode t .any) with hok | ⟨e, he⟩
  · exact hok
  generalize hroot : e.root = root
  cases hroot ▸ HostTree.encodeAt_fault he with
  | tooDeep hpart hdeep =>
    obtain ⟨u, hu, -⟩ := h.part_of_shape hpart
    have hle := hwithin _ u hu
    omega
  | unsupported hpart =>
    obtain ⟨u, -, -, d, -, htree⟩ := h.part_of_shape hpart
    cases d <;> cases htree
  | unhashable hpart hentry hkey hhash =>
    obtain ⟨u, hu, hdecoded⟩ := h.part_of_shape hpart
    obtain ⟨pairs, rfl, hpairs⟩ := hdecoded.of_map
    obtain ⟨p, hp, k, hphash, hk, htree⟩ := hpairs _ hentry
    rw [htree] at hkey
    rcases dynamic_of_hashable hphash hk with ⟨items, ds, htuple, -⟩ | hscalar
    · exact absurd (congrArg kind htuple) (hkeys _ pairs hu p hp)
    · rw [((HostTree.encodeAt_of_scalar hscalar).mp hkey).2, hphash] at hhash
      cases hhash
  | badName hpart _ _ =>
    obtain ⟨u, -, -, d, -, htree⟩ := h.part_of_shape hpart
    exact absurd htree (d.tree_ne_struct _ _)

/-- **When a decoded value can be sent back.** Exactly when no dict in the value that it was decoded
from has a tuple as a key, and nothing in that value is enclosed by more than 256 containers; it is
then decoded to itself again. -/
theorem WellFormed.encode_dynamic_iff (hv : v.WellFormed) (hd : v.dynamic = .ok d) :
    ((∃ w, encode d.tree .any = .ok w) ↔
        (∀ n entries, Part members n (Value.dict entries) v →
            ∀ e ∈ entries, e.1.kind ≠ Kind.tuple) ∧
          NestedWithin members 256 v) ∧
      ∀ w, encode d.tree .any = .ok w → w.dynamic = .ok d := by
  have hshape : DecodedShape v d.tree := ⟨hv, d, hd, rfl⟩
  refine ⟨⟨?_, ?_⟩, fun w hw => dynamic_of_encodeAt hv hd hw⟩
  · rintro ⟨w, hw⟩
    exact ⟨fun _ _ hpart => key_ne_tuple_of_encode hshape hw hpart,
      nestedWithin_of_encode hshape hw⟩
  · rintro ⟨hkeys, hwithin⟩
    exact encode_of_keys hshape hkeys hwithin

/-- A tuple in a set comes back, as a list in a list; a tuple as a key does not. -/
theorem WellFormed.encode_dynamic_iff_tuples :
    let inSet := Value.list [.set [.tuple [.int 1]]]
    let asList := Dynamic.list [.list [.list [.int ⟨1, by decide⟩]]]
    let inDict := Value.list [.dict [(.tuple [.int 1], .text "a")]]
    let asKey := Dynamic.list [.map [(.list [.int ⟨1, by decide⟩], .str "a")]]
    (inSet.WellFormed ∧ inSet.dynamic = .ok asList ∧
      ∃ w, encode asList.tree .any = .ok w ∧ w.dynamic = .ok asList) ∧
      inDict.WellFormed ∧ inDict.dynamic = .ok asKey ∧ ¬ ∃ w, encode asKey.tree .any = .ok w := by
  intro inSet asList inDict asKey
  have hone : (Value.tuple [.int 1]).WellFormed := .tuple (by simp [WellFormed.int])
  have hset : inSet.WellFormed := by
    refine .list (List.forall_mem_singleton.mpr (.set ?_ ?_ (List.pairwise_singleton _ _)))
    · exact List.forall_mem_singleton.mpr hone
    · simp [hashable, allHashable]
  have hdict : inDict.WellFormed := by
    refine .list (List.forall_mem_singleton.mpr (.dict ?_ ?_ ?_ (List.pairwise_singleton _ _)))
    · exact List.forall_mem_singleton.mpr hone
    · exact List.forall_mem_singleton.mpr (.text _)
    · simp [hashable, allHashable]
  have hback : encode asList.tree .any = .ok (.list [.list [.list [.int 1]]]) := rfl
  refine ⟨⟨hset, rfl, _, hback, (encode_dynamic_iff hset rfl).2 _ hback⟩, hdict, rfl, fun h => ?_⟩
  exact ((encode_dynamic_iff hdict rfl).1.mp h).1 1 _
    (.deeper (List.mem_singleton_self _) (.self _)) _ (List.mem_singleton_self _) rfl

end Value

end ScriptBridge
