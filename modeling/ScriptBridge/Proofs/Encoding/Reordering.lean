import ScriptBridge.Proofs.Encoding.Origins
import Mathlib.Data.List.Perm.Basic

/-!
# The open encoder and the order of maps

Host maps may list their entries in any order. The open encoder sorts them, so the order is lost, at
every level at once, as long as the texts of the keys tell them apart.

- `HostTree.Reordered`: two shapes that differ in the order of map entries alone, with
  `HostTree.Reordered.seq_inv` and `HostTree.Reordered.map_inv` for containers.
- `HostTree.KeysTellApart`: in every map inside, the encoded keys differ in their texts. With
  `HostTree.keysTellApart_seq` and `HostTree.keysTellApart_map` for containers.
- `HostTree.Reordered.openAt_eq_ok_iff`: reordered shapes encode to the same value or not at all.
- `HostTree.KeysTellApart.sortedInto`: a map becomes a dict with its keys in ascending order.
- `HostTree.encodeOpen_reordered`: whole values, with the order of keys at every place of the
  result.
-/

namespace ScriptBridge

namespace HostTree

mutual

/-- Two shapes that differ in nothing but the order of map entries, at any level. -/
inductive Reordered : HostTree → HostTree → Prop
  | same (t : HostTree) : Reordered t t
  | seq {items items' : List HostTree} (h : ItemsReordered items items') :
      Reordered (seq items) (seq items')
  | map {entries middle entries' : List (HostTree × HostTree)} (h : EntriesReordered entries middle)
      (hperm : middle.Perm entries') : Reordered (map entries) (map entries')
  | struct {typeName : String} {fields fields' : List (String × HostTree)}
      (h : FieldsReordered fields fields') :
      Reordered (struct typeName fields) (struct typeName fields')

/-- Item by item, in order. -/
inductive ItemsReordered : List HostTree → List HostTree → Prop
  | nil : ItemsReordered [] []
  | cons {t t' : HostTree} {items items' : List HostTree} (h : Reordered t t')
      (hrest : ItemsReordered items items') : ItemsReordered (t :: items) (t' :: items')

/-- Entry by entry, in order. -/
inductive EntriesReordered : List (HostTree × HostTree) → List (HostTree × HostTree) → Prop
  | nil : EntriesReordered [] []
  | cons {k k' v v' : HostTree} {entries entries' : List (HostTree × HostTree)}
      (hk : Reordered k k') (hv : Reordered v v') (hrest : EntriesReordered entries entries') :
      EntriesReordered ((k, v) :: entries) ((k', v') :: entries')

/-- Field by field, in order and under the same names. -/
inductive FieldsReordered : List (String × HostTree) → List (String × HostTree) → Prop
  | nil : FieldsReordered [] []
  | cons {name : String} {t t' : HostTree} {fields fields' : List (String × HostTree)}
      (h : Reordered t t') (hrest : FieldsReordered fields fields') :
      FieldsReordered ((name, t) :: fields) ((name, t') :: fields')

end

theorem ItemsReordered.forall₂ : ∀ {items items' : List HostTree}, ItemsReordered items items' →
    List.Forall₂ Reordered items items'
  | _, _, .nil => .nil
  | _, _, .cons h hrest => .cons h hrest.forall₂

theorem EntriesReordered.forall₂ : ∀ {entries entries' : List (HostTree × HostTree)},
    EntriesReordered entries entries' →
      List.Forall₂ (fun e e' => Reordered e.1 e'.1 ∧ Reordered e.2 e'.2) entries entries'
  | _, _, .nil => .nil
  | _, _, .cons hk hv hrest => .cons ⟨hk, hv⟩ hrest.forall₂

/-- A reordered sequence has reordered items. -/
theorem Reordered.seq_inv {items : List HostTree} {t : HostTree} (h : Reordered (.seq items) t) :
    ∃ items', t = .seq items' ∧ List.Forall₂ Reordered items items' := by
  cases h with
  | same => exact ⟨items, rfl, List.forall₂_same.mpr fun t _ => .same t⟩
  | seq h => exact ⟨_, rfl, h.forall₂⟩

/-- A reordered map has reordered entries in some order. -/
theorem Reordered.map_inv {entries : List (HostTree × HostTree)} {t : HostTree}
    (h : Reordered (.map entries) t) :
    ∃ middle entries', t = .map entries' ∧
      List.Forall₂ (fun e e' => Reordered e.1 e'.1 ∧ Reordered e.2 e'.2) entries middle ∧
        middle.Perm entries' := by
  cases h with
  | same =>
    exact ⟨entries, entries, rfl, List.forall₂_same.mpr fun e _ => ⟨.same _, .same _⟩, .refl _⟩
  | map h hperm => exact ⟨_, _, rfl, h.forall₂, hperm⟩

/-- In every map inside a shape, the keys encode to values that differ in their plain texts or their
printed forms. -/
def KeysTellApart (t : HostTree) : Prop :=
  ∀ entries, Inside (.map entries) t → entries.Pairwise fun a b =>
    ∀ k l, encodeOpen a.1 = .ok k → encodeOpen b.1 = .ok l → k.sortKey ≠ l.sortKey

theorem keysTellApart_seq {items : List HostTree} :
    KeysTellApart (seq items) ↔ ∀ t ∈ items, KeysTellApart t := by
  constructor
  · exact fun h _ ht entries hinside => h entries (.item ht hinside)
  · intro h entries hinside
    cases hinside with
    | item ht below => exact h _ ht entries below

theorem keysTellApart_map {entries : List (HostTree × HostTree)} :
    KeysTellApart (map entries) ↔
      (entries.Pairwise fun a b =>
        ∀ k l, encodeOpen a.1 = .ok k → encodeOpen b.1 = .ok l → k.sortKey ≠ l.sortKey) ∧
      ∀ e ∈ entries, KeysTellApart e.1 ∧ KeysTellApart e.2 := by
  constructor
  · intro h
    exact ⟨h entries (.self _), fun e he => ⟨fun entries hinside => h entries (.key he hinside),
      fun entries hinside => h entries (.value he hinside)⟩⟩
  · rintro ⟨hkeys, hentries⟩ entries' hinside
    cases hinside with
    | self => exact hkeys
    | key he below => exact (hentries _ he).1 entries' below
    | value he below => exact (hentries _ he).2 entries' below

namespace KeysTellApart

variable {entries : List (HostTree × HostTree)}

/-- The encoded entries of a map can be sorted in one way only. -/
theorem sortKeysDiffer {depth : Nat} {pairs : List (Value × Value)}
    (h : KeysTellApart (map entries)) (hpairs : List.Forall₂ (OpensEntry depth) entries pairs) :
    Value.SortKeysDiffer pairs :=
  forall₂_pairwise hpairs (keysTellApart_map.mp h).1 fun _ _ _ _ _ _ _ _ hp hq hne =>
    hne _ _ (encodeOpen_eq_ok_of_openAt hp.1) (encodeOpen_eq_ok_of_openAt hq.1)

theorem of_inside {t part : HostTree} (h : KeysTellApart t) (hinside : Inside part t) :
    KeysTellApart part :=
  fun entries hentries => h entries (hentries.trans hinside)

/-- A map becomes a dict with its keys in strictly ascending order. -/
theorem sortedInto {v : Value} (h : KeysTellApart (map entries))
    (hv : encodeOpen (map entries) = .ok v) : ∃ d, v = .dict d ∧ SortedInto entries d := by
  obtain ⟨-, pairs, hpairs, d, hd, rfl⟩ := openAt_map_eq_ok.mp hv
  obtain ⟨-, rfl⟩ := Dict.ofUnsorted_eq_ok.mp hd
  have hencoded : List.Forall₂ (OpensEntry 0) entries pairs := hpairs.imp fun _ _ hp =>
    ⟨encodeOpen_eq_ok_of_openAt hp.1, encodeOpen_eq_ok_of_openAt hp.2⟩
  exact ⟨_, rfl, pairs, _, hencoded, (List.mergeSort_perm _ _).symm,
    Value.mergeSort_entryLe_ascending (h.sortKeysDiffer hpairs), rfl⟩

end KeysTellApart

/-- Permuting entries permutes what they encode to. -/
theorem opensEntries_of_perm {entries entries' : List (HostTree × HostTree)} {depth : Nat}
    {pairs : List (Value × Value)} (hperm : entries.Perm entries')
    (h : List.Forall₂ (OpensEntry depth) entries pairs) :
    ∃ pairs', List.Forall₂ (OpensEntry depth) entries' pairs' ∧ pairs.Perm pairs' := by
  obtain ⟨pairs', h', hp⟩ := List.perm_comp_forall₂ hperm.symm h
  exact ⟨pairs', h', hp.symm⟩

mutual

/-- Reordered shapes encode to the same value, if to any. -/
theorem Reordered.openAt_eq_ok_iff : ∀ {t t' : HostTree}, Reordered t t' → KeysTellApart t →
    ∀ {depth : Nat} {v : Value}, openAt t depth = .ok v ↔ openAt t' depth = .ok v
  | _, _, .same _, _, _, _ => Iff.rfl
  | _, _, .seq h, hkeys, _, _ => by
    rw [openAt_seq_eq_ok, openAt_seq_eq_ok]
    simp only [h.opensItems_iff (keysTellApart_seq.mp hkeys)]
  | _, _, .map h hperm, hkeys, _, _ => by
    rw [openAt_map_eq_ok, openAt_map_eq_ok]
    have hentries := (keysTellApart_map.mp hkeys).2
    refine and_congr_right fun _ => ⟨?_, ?_⟩
    · rintro ⟨pairs, hpairs, d, hd, rfl⟩
      have hmiddle := (h.opensEntries_iff hentries).mp hpairs
      obtain ⟨pairs', hpairs', hp⟩ := opensEntries_of_perm hperm hmiddle
      have heq := Dict.ofUnsorted_eq_of_perm hp (hkeys.sortKeysDiffer hpairs)
      exact ⟨pairs', hpairs', d, heq ▸ hd, rfl⟩
    · rintro ⟨pairs', hpairs', d, hd, rfl⟩
      obtain ⟨pairs, hmiddle, hp⟩ := opensEntries_of_perm hperm.symm hpairs'
      have hpairs := (h.opensEntries_iff hentries).mpr hmiddle
      have heq := Dict.ofUnsorted_eq_of_perm hp.symm (hkeys.sortKeysDiffer hpairs)
      exact ⟨pairs, hpairs, d, heq.trans hd, rfl⟩
  | _, _, .struct _, _, _, _ => iff_of_false openAt_struct_ne_ok openAt_struct_ne_ok

theorem ItemsReordered.opensItems_iff : ∀ {items items' : List HostTree},
    ItemsReordered items items' → (∀ t ∈ items, KeysTellApart t) →
    ∀ {depth : Nat} {vs : List Value},
      List.Forall₂ (fun t v => openAt t depth = .ok v) items vs ↔
        List.Forall₂ (fun t v => openAt t depth = .ok v) items' vs
  | _, _, .nil, _, _, _ => Iff.rfl
  | _, _, .cons h hrest, hkeys, _, _ => by
    obtain ⟨hkey, hkeys⟩ := List.forall_mem_cons.mp hkeys
    simp only [List.forall₂_cons_left_iff, h.openAt_eq_ok_iff hkey, hrest.opensItems_iff hkeys]

theorem EntriesReordered.opensEntries_iff : ∀ {entries entries' : List (HostTree × HostTree)},
    EntriesReordered entries entries' →
    (∀ e ∈ entries, KeysTellApart e.1 ∧ KeysTellApart e.2) →
    ∀ {depth : Nat} {pairs : List (Value × Value)},
      List.Forall₂ (OpensEntry depth) entries pairs ↔
        List.Forall₂ (OpensEntry depth) entries' pairs
  | _, _, .nil, _, _, _ => Iff.rfl
  | _, _, .cons hk hv hrest, hkeys, _, _ => by
    obtain ⟨⟨hkey, hvalue⟩, hkeys⟩ := List.forall_mem_cons.mp hkeys
    simp only [List.forall₂_cons_left_iff, OpensEntry, hk.openAt_eq_ok_iff hkey,
      hv.openAt_eq_ok_iff hvalue, hrest.opensEntries_iff hkeys]

end

/-- **The order of maps is lost.** Shapes that differ in the order of map entries alone encode to
the same value, entry for entry, or both to none, as long as the texts of encoded keys tell them
apart. At each place of the value that belongs to a map stands the dict that the map becomes, with
its keys in strictly ascending order; and all dicts of the value stand at such places, or inside
script values that were there already. -/
theorem encodeOpen_reordered {t t' : HostTree} (h : Reordered t t') (hkeys : KeysTellApart t) :
    ((∃ v, encodeOpen t = .ok v ∧ encodeOpen t' = .ok v) ∨
        ∃ e e', encodeOpen t = .error e ∧ encodeOpen t' = .error e') ∧
      ∀ v, encodeOpen t = .ok v →
        (∀ path entries, Origin t v path (map entries) →
          ∃ d, partAt? Value.members path v = some (.dict d) ∧ SortedInto entries d ∧
            d.Pairwise fun a b => Value.KeyLt a.1 b.1) ∧
        ∀ path d, partAt? Value.members path v = some (.dict d) →
          (∃ entries, Origin t v path (map entries)) ∨
            ∃ outer inner s, path = outer ++ inner ∧ Origin t v outer (script s) ∧
              partAt? Value.members inner s = some (.dict d) := by
  refine ⟨both_ok_or_both_error fun _ => h.openAt_eq_ok_iff hkeys, fun v hv => ⟨?_, ?_⟩⟩
  · intro path entries horigin
    obtain ⟨w, hw, hmap⟩ := horigin.exists_partAt? hv
    obtain ⟨d, rfl, hsorted⟩ := (hkeys.of_inside horigin.inside).sortedInto hmap
    exact ⟨d, hw, hsorted, hsorted.ascending⟩
  · intro path d hd
    rcases exists_origin hv hd with ⟨part, horigin, hpart⟩ | hscript
    · rcases eq_of_encodeOpen_eq_dict hpart with ⟨entries, rfl⟩ | rfl
      · exact .inl ⟨entries, horigin⟩
      · exact .inr ⟨path, [], .dict d, (List.append_nil path).symm, horigin, rfl⟩
    · exact .inr hscript

/-- A number and its digits as text, one of them over a map that is reordered too. The script value
under the number keeps its order. -/
theorem encodeOpen_reordered_digits :
    let kept : Dict := [(.text "b", .null), (.text "a", .null)]
    let ab := [(str "a", nil), (str "b", nil)]
    let ba := [(str "b", nil), (str "a", nil)]
    let t := map [(str "1", seq [map ab]), (signed 1, script (.dict kept))]
    let t' := map [(signed 1, script (.dict kept)), (str "1", seq [map ba])]
    Reordered t t' ∧ KeysTellApart t ∧ ∃ v, encodeOpen t = .ok v ∧ encodeOpen t' = .ok v ∧
      (∃ d, partAt? Value.members [1, 0] v = some (.dict d) ∧ SortedInto ab d) ∧
      ∃ outer inner s, [3] = outer ++ inner ∧ Origin t v outer (script s) ∧
        partAt? Value.members inner s = some (.dict kept) := by
  intro kept ab ba t t'
  have hinner : Reordered (map ab) (map ba) :=
    .map (.cons (.same _) (.same _) (.cons (.same _) (.same _) .nil)) (.swap _ _ _)
  have houter : Reordered t t' :=
    .map (.cons (.same _) (.seq (.cons hinner .nil)) (.cons (.same _) (.same _) .nil)) (.swap _ _ _)
  have hkeys : KeysTellApart t := by
    simp only [t, ab, keysTellApart_map, keysTellApart_seq, List.forall_mem_cons]
    refine ⟨?_, ⟨nofun, ⟨?_, ⟨nofun, nofun⟩, ⟨nofun, nofun⟩, nofun⟩, nofun⟩, ⟨nofun, nofun⟩, nofun⟩
    all_goals
      simp [encodeOpen, openAt]
      decide +kernel
  -- what the maps become, from the inside out
  let d : Dict := [(.text "a", .null), (.text "b", .null)]
  let pairs : List (Value × Value) := [(.text "1", .list [.dict d]), (.int 1, .dict kept)]
  have hmap : openAt (map ab) 2 = .ok (.dict d) := by
    refine openAt_map_eq_ok.mpr ⟨by decide, d, .cons ⟨rfl, rfl⟩ (.cons ⟨rfl, rfl⟩ .nil), d, ?_, rfl⟩
    rw [Dict.ofUnsorted, List.mergeSort_of_pairwise (by decide +kernel)]
    rfl
  have hseq : openAt (seq [map ab]) 1 = .ok (.list [.dict d]) :=
    openAt_seq_eq_ok.mpr ⟨by decide, _, .cons hmap .nil, rfl⟩
  have hv : encodeOpen t = .ok (.dict pairs) := by
    refine openAt_map_eq_ok.mpr
      ⟨by decide, pairs, .cons ⟨rfl, hseq⟩ (.cons ⟨rfl, rfl⟩ .nil), pairs, ?_, rfl⟩
    rw [Dict.ofUnsorted, List.mergeSort_of_pairwise (by decide +kernel)]
    rfl
  obtain ⟨hboth, hplaces⟩ := encodeOpen_reordered houter hkeys
  obtain ⟨hmaps, hdicts⟩ := hplaces _ hv
  refine ⟨houter, hkeys, .dict pairs, hv, ?_, ?_, ?_⟩
  · rcases hboth with ⟨v, ht, ht'⟩ | ⟨e, _, he, -⟩
    · rw [ht', ← ht, hv]
    · cases hv.symm.trans he
  · have horigin : Origin t (.dict pairs) [1, 0] (map ab) :=
      .value (i := 0) rfl (List.mem_cons_self ..) rfl (.inl rfl) (encodeOpen_eq_ok_of_openAt hseq)
        (.item rfl rfl (.self _ _))
    obtain ⟨d', hd', hsorted, -⟩ := hmaps [1, 0] ab horigin
    exact ⟨d', hd', hsorted⟩
  · rcases hdicts [3] kept rfl with ⟨entries, horigin⟩ | hscript
    · -- a map would have been put in order
      obtain ⟨d', hd', -, hascending⟩ := hmaps [3] entries horigin
      obtain rfl := Value.dict.inj (Option.some.inj hd')
      have hlt := List.rel_of_pairwise_cons hascending (List.mem_cons_self ..)
      exact absurd hlt (by unfold Value.KeyLt; decide +kernel)
    · exact hscript

end HostTree

end ScriptBridge
