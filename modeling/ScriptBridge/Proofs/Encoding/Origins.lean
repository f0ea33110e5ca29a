import ScriptBridge.Proofs.Encoding.Open
import ScriptBridge.Proofs.Parts

/-!
# Where the parts of an openly encoded value come from

A path leads to a part of the encoded value. The shape has a part that was encoded there, but not at
the same path: a dict lists its entries in another order than the map, and where two keys are the
same it has the key of one entry with the value of another. So a path is followed through the shape
and the value together.

- `HostTree.Origin`: the part of the shape that a path of the value belongs to.
- `HostTree.Origin.exists_partAt?`: what stands there is what that part encodes to.
- `HostTree.exists_origin_member`, `HostTree.exists_origin`: one step of a path, and a whole path,
  that ends in a part of the shape or goes on inside a script value.
- `HostTree.SortedInto`: the dict that a map becomes, with `HostTree.SortedInto.ascending`.
-/

namespace ScriptBridge

namespace HostTree

/-- The part of a shape that the path of a value belongs to. Items keep their places. An entry of a
dict has its key from one entry of the map, and its value from one whose key is the same. -/
inductive Origin : HostTree → Value → List Nat → HostTree → Prop
  | self (t : HostTree) (v : Value) : Origin t v [] t
  | item {items : List HostTree} {vs : List Value} {i : Nat} {path : List Nat} {t part : HostTree}
      {v : Value} (ht : items[i]? = some t) (hv : vs[i]? = some v) (below : Origin t v path part) :
      Origin (seq items) (.list vs) (i :: path) part
  | key {entries : List (HostTree × HostTree)} {dict : Dict} {i : Nat} {path : List Nat}
      {e : HostTree × HostTree} {p : Value × Value} {part : HostTree} (hp : dict[i]? = some p)
      (he : e ∈ entries) (hkey : encodeOpen e.1 = .ok p.1) (below : Origin e.1 p.1 path part) :
      Origin (map entries) (.dict dict) (2 * i :: path) part
  | value {entries : List (HostTree × HostTree)} {dict : Dict} {i : Nat} {path : List Nat}
      {e : HostTree × HostTree} {p : Value × Value} {key : Value} {part : HostTree}
      (hp : dict[i]? = some p) (he : e ∈ entries) (hkey : encodeOpen e.1 = .ok key)
      (hsame : key = p.1 ∨ key.same p.1 = true) (hvalue : encodeOpen e.2 = .ok p.2)
      (below : Origin e.2 p.2 path part) :
      Origin (map entries) (.dict dict) ((2 * i + 1) :: path) part

variable {t part : HostTree} {v w : Value} {path : List Nat}

/-- Items of a sequence that is encoded are encoded to the items of the list. -/
theorem forall₂_of_encodeOpen_seq {items : List HostTree} (h : encodeOpen (seq items) = .ok v) :
    ∃ vs, v = .list vs ∧ List.Forall₂ (fun t w => encodeOpen t = .ok w) items vs := by
  obtain ⟨-, vs, hvs, rfl⟩ := openAt_seq_eq_ok.mp h
  exact ⟨vs, rfl, hvs.imp fun _ _ => encodeOpen_eq_ok_of_openAt⟩

/-- An entry of the dict has the key of an entry of the map, and the value of one whose key is the
same. -/
theorem exists_of_encodeOpen_map {entries : List (HostTree × HostTree)}
    (h : encodeOpen (map entries) = .ok v) :
    ∃ dict, v = .dict dict ∧ ∀ p ∈ dict, (∃ e ∈ entries, encodeOpen e.1 = .ok p.1) ∧
      ∃ e ∈ entries, ∃ key, encodeOpen e.1 = .ok key ∧ (key = p.1 ∨ key.same p.1 = true) ∧
        encodeOpen e.2 = .ok p.2 := by
  obtain ⟨-, pairs, hpairs, dict, hdict, rfl⟩ := openAt_map_eq_ok.mp h
  obtain ⟨-, rfl⟩ := Dict.ofUnsorted_eq_ok.mp hdict
  refine ⟨_, rfl, fun p hp => ?_⟩
  obtain ⟨⟨a, ha, hkey⟩, b, hb, hsame, hvalue⟩ := Assoc.exists_of_mem_putAll hp
  obtain ⟨e, he, hopens⟩ := forall₂_exists_left hpairs a (List.mem_mergeSort.mp ha)
  obtain ⟨e', he', hopens'⟩ := forall₂_exists_left hpairs b (List.mem_mergeSort.mp hb)
  rw [← hkey, ← hvalue]
  exact ⟨⟨e, he, encodeOpen_eq_ok_of_openAt hopens.1⟩, e', he', b.1,
    encodeOpen_eq_ok_of_openAt hopens'.1, hkey ▸ hsame, encodeOpen_eq_ok_of_openAt hopens'.2⟩

/-- At the path stands what the part of the shape encodes to. -/
theorem Origin.exists_partAt? (h : Origin t v path part) (hv : encodeOpen t = .ok v) :
    ∃ w, partAt? Value.members path v = some w ∧ encodeOpen part = .ok w := by
  induction h with
  | self t v => exact ⟨v, rfl, hv⟩
  | @item items vs i path t part v ht hi _ ih =>
    obtain ⟨_, heq, hvs⟩ := forall₂_of_encodeOpen_seq hv
    obtain rfl := Value.list.inj heq
    obtain ⟨t', ht', hv⟩ := forall₂_getElem?_left hvs hi
    obtain rfl := Option.some.inj (ht.symm.trans ht')
    obtain ⟨w, hw, hpart⟩ := ih hv
    refine ⟨w, ?_, hpart⟩
    rw [partAt?, Value.members, hi]
    exact hw
  | key hp _ hkey _ ih =>
    obtain ⟨w, hw, hpart⟩ := ih hkey
    refine ⟨w, ?_, hpart⟩
    rw [partAt?, Value.members, keysAndValues_getElem?_key, hp]
    exact hw
  | value hp _ _ _ hvalue _ ih =>
    obtain ⟨w, hw, hpart⟩ := ih hvalue
    refine ⟨w, ?_, hpart⟩
    rw [partAt?, Value.members, keysAndValues_getElem?_value, hp]
    exact hw

/-- A member of the encoded value belongs to a member of the shape, unless the shape is a script
value itself. -/
theorem exists_origin_member {i : Nat} (hv : encodeOpen t = .ok v)
    (hw : v.members[i]? = some w) :
    t = script v ∨ ∃ member, encodeOpen member = .ok w ∧
      ∀ path part, Origin member w path part → Origin t v (i :: path) part := by
  cases t with
  | script v' =>
    rw [encodeOpen, openAt, guardDepth_eq_ok, Except.ok.injEq] at hv
    exact .inl (congrArg script hv.2)
  | seq items =>
    obtain ⟨vs, rfl, hvs⟩ := forall₂_of_encodeOpen_seq hv
    obtain ⟨member, hmember, hencoded⟩ := forall₂_getElem?_left hvs hw
    exact .inr ⟨member, hencoded, fun _ _ => .item hmember hw⟩
  | map entries =>
    obtain ⟨dict, rfl, hdict⟩ := exists_of_encodeOpen_map hv
    obtain ⟨j, rfl | rfl⟩ : ∃ j, i = 2 * j ∨ i = 2 * j + 1 := ⟨i / 2, by omega⟩
    · rw [Value.members, keysAndValues_getElem?_key, Option.map_eq_some_iff] at hw
      obtain ⟨p, hp, rfl⟩ := hw
      obtain ⟨⟨e, he, hkey⟩, -⟩ := hdict p (List.mem_of_getElem? hp)
      exact .inr ⟨e.1, hkey, fun _ _ => .key hp he hkey⟩
    · rw [Value.members, keysAndValues_getElem?_value, Option.map_eq_some_iff] at hw
      obtain ⟨p, hp, rfl⟩ := hw
      obtain ⟨-, e, he, key, hkey, hsame, hvalue⟩ := hdict p (List.mem_of_getElem? hp)
      exact .inr ⟨e.2, hvalue, fun _ _ => .value hp he hkey hsame hvalue⟩
  | struct typeName fields => exact absurd hv openAt_struct_ne_ok
  | float x =>
    rw [encodeOpen, openAt, guardDepth_eq_ok, Except.ok.injEq] at hv
    obtain ⟨-, rfl⟩ := hv
    rw [openNumber] at hw
    split at hw <;> cases hw
  | unsupported name => cases hv
  | _ =>
    rw [encodeOpen, openAt, guardDepth_eq_ok, Except.ok.injEq] at hv
    obtain ⟨-, rfl⟩ := hv
    cases hw

/-- A path of the encoded value belongs to a part of the shape, or goes on inside a script value
that is one. -/
theorem exists_origin (hv : encodeOpen t = .ok v) (hw : partAt? Value.members path v = some w) :
    (∃ part, Origin t v path part ∧ encodeOpen part = .ok w) ∨
      ∃ outer inner s, path = outer ++ inner ∧ Origin t v outer (script s) ∧
        partAt? Value.members inner s = some w := by
  induction path generalizing t v with
  | nil =>
    obtain rfl := Option.some.inj hw
    exact .inl ⟨t, .self t v, hv⟩
  | cons i path ih =>
    obtain ⟨m, hm, hpath⟩ := Option.bind_eq_some_iff.mp hw
    rcases exists_origin_member hv hm with rfl | ⟨member, hmember, horigin⟩
    · exact .inr ⟨[], i :: path, v, rfl, .self _ v, hw⟩
    · rcases ih hmember hpath with ⟨part, hpart, hencoded⟩ | ⟨outer, inner, s, rfl, hs, hinner⟩
      · exact .inl ⟨part, horigin _ _ hpart, hencoded⟩
      · exact .inr ⟨i :: outer, inner, s, rfl, horigin _ _ hs, hinner⟩

/-- The part that a path of the value belongs to stands inside the shape. -/
theorem Origin.inside (h : Origin t v path part) : Inside part t := by
  induction h with
  | self => exact .self _
  | item ht _ _ ih => exact .item (List.mem_of_getElem? ht) ih
  | key _ he _ _ ih => exact .key he ih
  | value _ he _ _ _ _ ih => exact .value he ih

/-- Only maps become dicts, and dicts that are script values already. -/
theorem eq_of_encodeOpen_eq_dict {dict : Dict} (h : encodeOpen t = .ok (.dict dict)) :
    (∃ entries, t = map entries) ∨ t = script (.dict dict) := by
  cases t with
  | map entries => exact .inl ⟨entries, rfl⟩
  | script v =>
    rw [encodeOpen, openAt, guardDepth_eq_ok, Except.ok.injEq] at h
    exact .inr (congrArg script h.2)
  | seq items =>
    obtain ⟨_, heq, -⟩ := forall₂_of_encodeOpen_seq h
    cases heq
  | struct typeName fields => exact absurd h openAt_struct_ne_ok
  | float x =>
    rw [encodeOpen, openAt, guardDepth_eq_ok, Except.ok.injEq, openNumber] at h
    split at h <;> cases h.2
  | _ => cases h

/-! ## What a map becomes -/

/-- The dict that a map becomes. Its entries are encoded one by one, put in strictly ascending order
of their keys, and stored one after the other. -/
def SortedInto (entries : List (HostTree × HostTree)) (dict : Dict) : Prop :=
  ∃ pairs sorted, List.Forall₂ (OpensEntry 0) entries pairs ∧ pairs.Perm sorted ∧
    sorted.Pairwise (fun a b => Value.KeyLt a.1 b.1) ∧ dict = Assoc.putAll Value.same [] sorted

/-- Keys that print differently may still be the same key; what is then lost leaves the rest in
order. -/
theorem SortedInto.ascending {entries : List (HostTree × HostTree)} {dict : Dict}
    (h : SortedInto entries dict) : dict.Pairwise fun a b => Value.KeyLt a.1 b.1 := by
  obtain ⟨-, sorted, -, -, hsorted, rfl⟩ := h
  have hsub := Assoc.putAll_keys_sublist Value.same [] sorted
  exact List.pairwise_map.mp ((List.pairwise_map.mpr hsorted).sublist hsub)

end HostTree

end ScriptBridge
