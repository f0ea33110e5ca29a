import ScriptBridge.Proofs.Decoding.Typed
import ScriptBridge.Proofs.Encoding.Scalar
import ScriptBridge.Proofs.Encoding.Strict
import ScriptBridge.Proofs.Host.Tree
import ScriptBridge.Proofs.Value.WellFormed

/-!
# From the host to a script and back

What is encoded from a value of a host type is decoded to that value again. The encoder sees no
types and the decoder sees no host values; what they agree on is the judgment between the two.

- `HostValue.scalar?`, `HostValue.encodeAt_scalar`: values that encode as a whole.
- `HostValue.encodeAt_struct`: what a regular struct becomes.
- `HostValue.same_of_same_encoded`: different keys encode to different keys, so that a dict keeps
  every entry of a map.
- `HostValue.decode_encodeAt`: the round trip of a value inside containers, by induction on the
  judgment.
- `HostValue.decode_encode`: the round trip of a whole value.
-/

namespace ScriptBridge

namespace HostValue

/-! ## What values become -/

/-- The script value of a value without members. -/
def scalar? : HostValue → Option Value
  | bool b => .some (.bool b)
  | int _ n => .some (.int n.val)
  | bigInt n => .some (.int n)
  | single x => .some (.float x.widen)
  | double x => .some (.float x)
  | string s => .some (.text s)
  | char c => .some (.text (String.ofList [c]))
  | bytes bs => .some (.bytes bs)
  | callable c => .some (.callable c)
  | script v => .some v
  | none => .some .null
  | _ => .none

/-- A value without members becomes its script value. -/
theorem encodeAt_scalar {v : HostValue} {s w : Value} {depth : Nat} (hv : v.scalar? = Option.some s)
    (h : v.tree.encodeAt .any depth = .ok w) : w = s := by
  have hleaf : ∀ (t : HostTree) (u : Value), t.leaf .any u = .ok u := fun _ _ => rfl
  cases v with
  | int t n =>
    obtain rfl : Value.int n.val = s := Option.some.inj hv
    exact ((HostTree.encodeAt_of_scalar (HostTree.scalar?_ofFixed n)).mp h).2
  | _ =>
    simp only [scalar?, reduceCtorEq, Option.some.injEq] at hv
    all_goals
      subst hv
      simp_all [tree, HostTree.encodeAt]

/-- What a regular struct becomes: a record with one attribute for each field that has storage, in
the order of the table and under the attribute name of the entry. -/
theorem encodeAt_struct {d : StructDef} {stored hidden : List HostValue} {w : Value} {depth : Nat}
    (hregular : d.Regular) (hlength : stored.length = d.slots.length)
    (h : (struct d.decl stored hidden).tree.encodeAt .any depth = .ok w) :
    ∃ attrs : List (String × Value), w = .record d.typeName attrs ∧
      attrs.length = stored.length ∧ Assoc.KeysDiffer (· == ·) attrs ∧
      ∀ (i : Nat) (attr : String × Value), attrs[i]? = Option.some attr →
        ∃ spec x, d.table[i]? = Option.some spec ∧ stored[i]? = Option.some x ∧
          attr.1 = spec.attrName ∧ x.tree.encodeAt .any (depth + 1) = .ok attr.2 := by
  rw [tree, HostTree.encodeAt_struct_eq_ok, itemTrees_eq_map] at h
  obtain ⟨-, attrs, hattrs, -, rfl⟩ := h
  have hfields : ∀ (i : Nat) (attr : String × Value), attrs[i]? = Option.some attr →
      ∃ spec x, d.table[i]? = Option.some spec ∧ stored[i]? = Option.some x ∧
        attr.1 = spec.attrName ∧ x.tree.encodeAt .any (depth + 1) = .ok attr.2 := by
    intro i attr hattr
    obtain ⟨f, hf, hencodes⟩ := forall₂_getElem?_left hattrs hattr
    obtain ⟨hname, htree⟩ := List.getElem?_zip_eq_some.mp hf
    rw [List.getElem?_map, Option.map_eq_some_iff] at hname htree
    obtain ⟨spec, hspec, hname⟩ := hname
    obtain ⟨x, hx, htree⟩ := htree
    exact ⟨spec, x, hspec, hx, hencodes.1.trans hname.symm, htree ▸ hencodes.2⟩
  have hdiffer : Assoc.KeysDiffer (· == ·) attrs := by
    refine List.pairwise_iff_getElem.mpr fun i j hi hj hij => ?_
    obtain ⟨spec, -, hspec, -, hname, -⟩ := hfields i _ (List.getElem?_eq_getElem hi)
    obtain ⟨spec', -, hspec', -, hname', -⟩ := hfields j _ (List.getElem?_eq_getElem hj)
    rw [beq_eq_false_iff_ne, hname, hname']
    intro heq
    -- two entries with one name would resolve to one index
    have hresolves := hregular.resolves j spec' hspec'
    rw [heq, hregular.resolves i spec hspec] at hresolves
    exact Nat.ne_of_lt hij (Option.some.inj hresolves)
  refine ⟨attrs, ?_, ?_, hdiffer, hfields⟩
  · rw [Assoc.putAll_of_keysDiffer hdiffer]
    rfl
  · have htable : stored.length ≤ d.table.length := hlength ▸ hregular.storage
    have hzip := hattrs.length_eq
    rw [List.length_zip, List.length_map, List.length_map] at hzip
    exact hzip.symm.trans (Nat.min_eq_right htable)

/-! ## Different keys become different keys -/

/-- Values of one type that encode to the same key are the same. Lists and dicts are no keys, so
that only values without members, options and structs are left. -/
theorem same_of_same_encoded {schema : Schema} {v v' : HostValue} {t : HostType} {w w' : Value}
    {depth : Nat} (hv : v.HasType schema t) (hv' : v'.HasType schema t)
    (hr : v.Recoverable schema) (hr' : v'.Recoverable schema)
    (hw : v.tree.encodeAt .any depth = .ok w) (hw' : v'.tree.encodeAt .any depth = .ok w')
    (hhash : w.hashable = true) (hsame : w.same w' = true) : v.same v' = true := by
  -- the second value has the same type, so that it is of the same form
  induction hv generalizing v' w w' depth with
  | pointer _ ih =>
    cases hv' with
    | pointer hv' => exact ih hv' hr hr' hw hw' hhash hsame
  | none t =>
    cases hv' with
    | none => rfl
    | @some x _ hx =>
      -- only absence is encoded as null
      obtain rfl : w = .null := encodeAt_scalar (v := none) rfl hw
      rw [Value.same_null_iff] at hsame
      rw [hsame] at hw'
      exact absurd (HostTree.encode_eq_ok_of_encodeAt hw') (hr'.present x (.self _))
  | @some x t hx ih =>
    cases hv' with
    | none =>
      obtain rfl : w' = .null := encodeAt_scalar (v := none) rfl hw'
      rw [Value.same_null_right_iff] at hsame
      rw [hsame] at hw
      exact absurd (HostTree.encode_eq_ok_of_encodeAt hw) (hr.present x (.self _))
    | some hx' =>
      exact ih hx' (hr.inside (.some (.self _))) (hr'.inside (.some (.self _))) hw hw' hhash hsame
  | sequence h hkind =>
    rw [tree, HostTree.encodeAt_seq_eq_ok] at hw
    obtain ⟨-, vs, -, rfl⟩ := hw
    cases hhash
  | mapping hkeys hvalues hkind =>
    rw [tree, HostTree.encodeAt_map_eq_ok] at hw
    obtain ⟨-, pairs, -, -, rfl⟩ := hw
    cases hhash
  | @struct name stored hidden hlength h ih =>
    cases hv' with
    | @struct _ stored' hidden' hlength' h' =>
      obtain ⟨hregular, rfl⟩ := hr.struct
      obtain ⟨-, rfl⟩ := hr'.struct
      obtain ⟨attrs, rfl, hattrs, -, hfields⟩ := encodeAt_struct hregular hlength hw
      obtain ⟨attrs', rfl, hattrs', hdiffer, hfields'⟩ := encodeAt_struct hregular hlength' hw'
      rw [Value.hashable, Value.attrsHashable_iff] at hhash
      simp only [Value.same, Bool.and_eq_true] at hsame
      have hstored : List.Forall₂ (fun a b => same a b = true) stored stored' := by
        refine forall₂_of_getElem? (by omega) fun i x x' hx hx' => ?_
        have hi := (List.getElem?_eq_some_iff.mp hx).1
        have hi' := (List.getElem?_eq_some_iff.mp hx').1
        have hslot := List.getElem?_eq_getElem (hlength ▸ hi)
        have hattr := List.getElem?_eq_getElem (hattrs ▸ hi)
        have hattr' := List.getElem?_eq_getElem (hattrs' ▸ hi')
        obtain ⟨spec, y, hspec, hy, hname, henc⟩ := hfields i _ hattr
        obtain ⟨spec', y', hspec', hy', hname', henc'⟩ := hfields' i _ hattr'
        obtain rfl := Option.some.inj (hx.symm.trans hy)
        obtain rfl := Option.some.inj (hx'.symm.trans hy')
        obtain rfl := Option.some.inj (hspec.symm.trans hspec')
        have hsame := Value.same_of_attrsWithin hdiffer hsame.2.2 hattr hattr'
          (hname.trans hname'.symm)
        exact ih i x _ hx hslot (h' i x' _ hx' hslot)
          (hr.inside (.field (List.mem_of_getElem? hx) (.self _)))
          (hr'.inside (.field (List.mem_of_getElem? hx') (.self _))) henc henc'
          (hhash _ (List.mem_of_getElem? hattr)) hsame
      simp only [same, beq_self_eq_true, Bool.true_and, Bool.and_eq_true]
      exact ⟨eachSame_iff.mpr hstored, hregular.hidden_same⟩
  | int t n =>
    cases hv' with
    | int _ m =>
      obtain rfl := encodeAt_scalar (v := .int t n) rfl hw
      obtain rfl := encodeAt_scalar (v := .int t m) rfl hw'
      simpa [same, Value.same] using hsame
  | single x =>
    cases hv' with
    | single y =>
      obtain rfl := encodeAt_scalar (v := .single x) rfl hw
      obtain rfl := encodeAt_scalar (v := .single y) rfl hw'
      exact Binary.same_of_same_widen hsame
  | char c =>
    cases hv' with
    | char d =>
      obtain rfl := encodeAt_scalar (v := .char c) rfl hw
      obtain rfl := encodeAt_scalar (v := .char d) rfl hw'
      simpa [same, Value.same, String.ofList_inj] using hsame
  | _ =>
    -- the other values are the same exactly when their script values are
    cases hv'
    obtain rfl := encodeAt_scalar rfl hw
    obtain rfl := encodeAt_scalar rfl hw'
    exact hsame

/-! ## The round trip -/

/-- Recoverable keys that differ encode to keys that differ. -/
theorem keysDiffer_of_encoded {schema : Schema} {kind : MappingKind}
    {entries : List (HostValue × HostValue)} {pairs : List (Value × Value)} {key : HostType}
    {depth : Nat} (hkeys : ∀ e ∈ entries, e.1.HasType schema key)
    (hrecoverable : ∀ e ∈ entries, e.1.Recoverable schema) (hkind : kind.Holds entries)
    (hencoded : List.Forall₂ (fun e p => e.1.tree.encodeAt .any depth = .ok p.1) entries pairs)
    (hhash : ∀ p ∈ pairs, p.1.hashable = true) : Assoc.KeysDiffer Value.same pairs := by
  refine forall₂_pairwise hencoded hkind.keysDiffer ?_
  intro e he p _ e' he' p' hp' hencodes hencodes' hdiffer
  rw [← Bool.not_eq_true] at hdiffer ⊢
  intro hsame
  exact hdiffer (same_of_same_encoded (hkeys e' he') (hkeys e he) (hrecoverable e' he')
    (hrecoverable e he) hencodes' hencodes (hhash p' hp') hsame)

/-- What a value of a type becomes inside containers is decoded to the value. -/
theorem decode_encodeAt {schema : Schema} {v : HostValue} {t : HostType} {w : Value} {depth : Nat}
    (hv : v.HasType schema t) (hr : v.Recoverable schema)
    (hw : v.tree.encodeAt .any depth = .ok w) : decode schema w t = .ok v.quiet := by
  -- by induction on the judgment; depths and encoded values differ from member to member
  induction hv generalizing w depth with
  | bool _ | bigInt _ | double _ | string _ | bytes _ | callable _ =>
    rw [encodeAt_scalar rfl hw]
    rfl
  | int t n =>
    rw [encodeAt_scalar rfl hw]
    show decodeFixed t n.val = _
    rw [decodeFixed, Fixed.ofInt?, dif_pos n.inRange]
    rfl
  | single x =>
    rw [encodeAt_scalar rfl hw]
    show Except.ok (HostValue.single x.widen.narrow) = _
    rw [Binary.narrow_widen_eq_quiet]
    rfl
  | char c =>
    rw [encodeAt_scalar rfl hw]
    show decodeChar (String.ofList [c]) = _
    rw [decodeChar, String.toList_ofList]
    rfl
  | script v =>
    rw [encodeAt_scalar rfl hw]
    cases v <;> rfl
  | pointer _ ih =>
    rw [decode_pointer]
    exact ih hr hw
  | none t =>
    rw [encodeAt_scalar (v := none) rfl hw]
    exact decode_option_null t
  | @some x t _ ih =>
    refine decode_option_of_ne_null ?_ (ih (hr.inside (.some (.self _))) hw)
    -- encoded as null it would be read back as absent
    rintro rfl
    exact hr.present x (.self _) (HostTree.encode_eq_ok_of_encodeAt hw)
  | @sequence kind items item h hkind ih =>
    rw [tree, itemTrees_eq_map, HostTree.encodeAt_seq_eq_ok] at hw
    obtain ⟨-, vs, hvs, rfl⟩ := hw
    rw [List.forall₂_map_left_iff] at hvs
    rw [quiet, quietItems_eq_map]
    refine decode_list_of_items ?_ hkind.quiet
    rw [List.forall₂_map_right_iff]
    exact (forall₂_imp_of_mem hvs fun x hx v _ hencodes =>
      ih x hx (hr.inside (.item hx (.self _))) hencodes).flip
  | @mapping kind entries key value hkeys hvalues hkind ihkeys ihvalues =>
    rw [tree, entryTrees_eq_map, HostTree.encodeAt_map_eq_ok] at hw
    obtain ⟨-, pairs, hpairs, hhash, rfl⟩ := hw
    rw [List.forall₂_map_left_iff] at hpairs
    have hkey : ∀ e ∈ entries, e.1.Recoverable schema := fun e he =>
      hr.inside (.key he (.self _))
    have hvalue : ∀ e ∈ entries, e.2.Recoverable schema := fun e he =>
      hr.inside (.value he (.self _))
    have hdiffer := keysDiffer_of_encoded hkeys hkey hkind (hpairs.imp fun _ _ hp => hp.1) hhash
    -- no entry is lost in the dict, and none in the map that is read back
    rw [Assoc.putAll_of_keysDiffer hdiffer, quiet, quietEntries_eq_map]
    refine decode_dict_of_entries ?_ hkind.quiet
    rw [List.forall₂_map_right_iff]
    exact (forall₂_imp_of_mem hpairs fun e he p _ hp =>
      ⟨ihkeys e he (hkey e he) hp.1, ihvalues e he (hvalue e he) hp.2⟩).flip
  | @struct name stored hidden hlength h ih =>
    obtain ⟨hregular, rfl⟩ := hr.struct
    obtain ⟨attrs, rfl, hattrs, -, hfields⟩ := encodeAt_struct hregular hlength hw
    rw [quiet, quietItems_eq_map]
    refine decode_record_of_attrs (by rw [hattrs, List.length_map])
      (by rw [← hlength, List.length_map]) fun i attr y hattr hy => ?_
    -- the attribute at an index is that of the field at the index, and finds it again
    obtain ⟨spec, x, hspec, hx, hname, hencodes⟩ := hfields i attr hattr
    rw [List.getElem?_map, hx] at hy
    obtain rfl : x.quiet = y := Option.some.inj hy
    have hi : i < (schema.lookup name).slots.length :=
      hlength ▸ (List.getElem?_eq_some_iff.mp hx).1
    have hslot := List.getElem?_eq_getElem hi
    refine ⟨(schema.lookup name).slots[i].type, ?_, ?_⟩
    · rw [hname]
      exact hregular.attrSlot? hspec hslot
    · exact ih i x _ hx hslot (hr.inside (.field (List.mem_of_getElem? hx) (.self _))) hencodes

/-- **The round trip.** A recoverable value of a type, once encoded, is decoded to that type as the
value itself, but for which NaN its 32-bit numbers are. -/
theorem decode_encode (schema : Schema) (v : HostValue) (t : HostType) (w : Value)
    (htyped : v.HasType schema t) (hrecoverable : v.Recoverable schema)
    (hencoded : encode v.tree .any = .ok w) : decode schema w t = .ok v.quiet :=
  decode_encodeAt htyped hrecoverable hencoded

/-- A struct with a map whose keys may be absent and whose numbers have 32 bits. Of its two numbers
one is a NaN, and its count is the host's alone. -/
theorem decode_encode_tally :
    let spec := (FieldSpec.ofIdentifier "n").withName "n"
    let schema := Schema.empty.declare "Tally"
      [(spec, .mapping .hashMap (.option .string) .single)] [] [("count", .bool)]
    let entries := [(HostValue.some (.string "a"), HostValue.single (.ofBits _ 0x3f000000)),
      (none, single (.ofBits _ 0x7fc00001))]
    let v := struct (schema.lookup "Tally").decl [mapping .hashMap entries] [bool false]
    let w := Value.record "Tally" [("n", .dict [(.text "a", .float (.ofBits _ 0x3fe0000000000000)),
      (.null, .float (.ofBits _ 0x7ff8000000000000))])]
    v.HasType schema (.struct "Tally") ∧ v.Recoverable schema ∧ encode v.tree .any = .ok w ∧
      decode schema w (.struct "Tally") = .ok v.quiet := by
  intro spec schema entries v w
  have htyped : v.HasType schema (.struct "Tally") := by
    refine .struct rfl fun i x slot hx hslot => ?_
    cases i with
    | succ i => cases hx
    | zero =>
      obtain rfl : mapping .hashMap entries = x := Option.some.inj hx
      obtain rfl : schema.slot (.mapping .hashMap (.option .string) .single) = slot :=
        Option.some.inj hslot
      refine .mapping ?_ ?_ ?_
      · exact List.forall_mem_cons.mpr
          ⟨.some (.string "a"), List.forall_mem_singleton.mpr (.none _)⟩
      · exact List.forall_mem_cons.mpr ⟨.single _, List.forall_mem_singleton.mpr (.single _)⟩
      · exact List.pairwise_pair.mpr rfl
  have hregular : (schema.lookup "Tally").Regular := by
    refine Schema.Declared.regular (.declare .empty _ _ _ _) fun i s hs => ?_
    cases i with
    | succ i => cases hs
    | zero =>
      obtain rfl : spec = s := Option.some.inj hs
      decide
  -- of what is inside the map nothing is a struct, and one key is present
  have hmember : ∀ u, Inside u (mapping .hashMap entries) →
      (∀ decl stored hidden, u ≠ .struct decl stored hidden) ∧
        ∀ x, u = .some x → x = .string "a" := by
    intro u hu
    cases hu with
    | self => exact ⟨nofun, nofun⟩
    | key he hu =>
      rcases List.mem_pair.mp he with rfl | rfl
      · cases hu with
        | self => exact ⟨nofun, fun x hx => (HostValue.some.inj hx).symm⟩
        | some hu =>
          cases hu
          exact ⟨nofun, nofun⟩
      · cases hu
        exact ⟨nofun, nofun⟩
    | value he hu =>
      rcases List.mem_pair.mp he with rfl | rfl <;> cases hu <;> exact ⟨nofun, nofun⟩
  have hstruct : ∀ decl stored hidden, Inside (.struct decl stored hidden) v →
      decl = (schema.lookup "Tally").decl ∧ hidden = [bool false] := by
    intro decl stored hidden hu
    have hu : Inside _ (struct _ [mapping .hashMap entries] [bool false]) := hu
    cases hu with
    | self => exact ⟨rfl, rfl⟩
    | field h hu =>
      obtain rfl := List.mem_singleton.mp h
      exact absurd rfl ((hmember _ hu).1 decl stored hidden)
  have hrecoverable : v.Recoverable schema := by
    refine ⟨fun x hu => ?_, fun decl stored hidden hu => ?_, fun decl stored hidden hu => ?_⟩
    · have hu : Inside _ (struct _ [mapping .hashMap entries] [bool false]) := hu
      cases hu with
      | field h hu =>
        obtain rfl := List.mem_singleton.mp h
        rw [(hmember _ hu).2 x rfl]
        nofun
    · rw [(hstruct decl stored hidden hu).1]
      exact hregular
    · rw [(hstruct decl stored hidden hu).1, (hstruct decl stored hidden hu).2]
      rfl
  have hencoded : encode v.tree .any = .ok w := by
    simp only [v, w, schema, entries, spec]
    rfl
  exact ⟨htyped, hrecoverable, hencoded, decode_encode schema v _ w htyped hrecoverable hencoded⟩

end HostValue

end ScriptBridge
