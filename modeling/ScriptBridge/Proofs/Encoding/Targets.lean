import ScriptBridge.Proofs.Encoding.WellFormed

/-!
# Targets of the strict encoder

A target is tested in four places: once for all values without members, after they have been
encoded, and before anything is encoded for sequences, for maps and for structs. All four say the
same. What is encoded for a target is of its kind, and it is what would have been encoded anyway,
but for sequences that are asked to be tuples or sets.

- `Kind.target?`: the target that stands for a kind. Null has none.
- `HostTree.accepts_kind_of_encodeAt`: what is encoded for a target is of a kind that it accepts.
- `HostTree.encodeAt_target_of_kind`: what is encoded anyway is encoded for the target of its kind.
- `encodeRecord_eq_error`, `encodeSetCounting_eq_error`: to ask for the parts of a record or a set
  fails exactly as the encoder does.
- `Elements.ofList_eq_firstOccurrences`: what becomes of the items of a sequence in a set.
- `HostTree.encode_honours_targets`: all of this of whole values.
-/

namespace ScriptBridge

namespace Kind

/-- The target that stands for a kind. -/
def target? : Kind → Option Target
  | null => none
  | bool => some .bool
  | int => some .int
  | float => some .float
  | text => some .text
  | bytes => some .bytes
  | list => some .list
  | tuple => some .tuple
  | dict => some .dict
  | set => some .set
  | callable => some .callable
  | record => some .record

/-- A target stands for one kind, and a kind has one target. -/
theorem target?_eq_some {k : Kind} {target : Target} :
    k.target? = some target ↔ target.kind? = some k := by
  cases k <;> cases target <;> decide

/-- Every kind but that of null has a target. -/
theorem target?_eq_none {k : Kind} : k.target? = none ↔ k = .null := by
  cases k <;> decide

end Kind

theorem Target.accepts_iff {target : Target} {k : Kind} :
    target.accepts k = true ↔ target = .any ∨ target.kind? = some k := by
  cases target <;> simp [accepts, kind?]

theorem Value.kind_eq_null {v : Value} : v.kind = .null ↔ v = .null := by
  cases v <;> simp [kind]

/-- Inserting items into a set leaves the first occurrences of those that are hashable. -/
theorem Elements.ofList_eq_firstOccurrences {items : List Value}
    (hitems : ∀ v ∈ items, v.WellFormed) :
    ofList items = firstOccurrences Value.same (items.filter Value.hashable) := by
  rw [ofList_eq_after, after_eq_insertAll]
  exact Distinct.insertAll_eq_firstOccurrences Value.equivOn fun v hv =>
    hitems v (List.mem_of_mem_filter hv)

namespace HostTree

variable {t : HostTree} {target : Target} {depth : Nat} {v : Value}

/-- What is encoded for a target is of a kind that the target accepts. -/
theorem accepts_kind_of_encodeAt (h : encodeAt t target depth = .ok v) :
    target.accepts v.kind = true := by
  cases t with
  | seq items =>
    obtain ⟨-, build, hbuild, vs, -, rfl⟩ := encodeAt_seq_target_eq_ok.mp h
    cases target with
    | any | list | tuple | set =>
      obtain rfl := Option.some.inj hbuild
      rfl
    | _ => cases hbuild
  | map entries =>
    obtain ⟨haccepts, h⟩ := encodeAt_map_target_eq_ok.mp h
    obtain ⟨-, _, -, -, rfl⟩ := encodeAt_map_eq_ok.mp h
    exact haccepts
  | struct typeName fields =>
    obtain ⟨haccepts, h⟩ := encodeAt_struct_target_eq_ok.mp h
    obtain ⟨-, _, -, -, rfl⟩ := encodeAt_struct_eq_ok.mp h
    exact haccepts
  | unsupported name => simp [encodeAt] at h
  | _ =>
    simp only [encodeAt, guardDepth_eq_ok, leaf_eq_ok] at h
    obtain ⟨-, haccepts, rfl⟩ := h
    exact haccepts

/-- What is encoded when no target asks for anything is encoded for the target of its kind. -/
theorem encodeAt_target_of_kind (h : encodeAt t .any depth = .ok v)
    (hkind : target.kind? = some v.kind) : encodeAt t target depth = .ok v := by
  have haccepts : target.accepts v.kind = true := Target.accepts_iff.mpr (.inr hkind)
  cases t with
  | seq items =>
    obtain ⟨hd, vs, hvs, rfl⟩ := encodeAt_seq_eq_ok.mp h
    obtain rfl : target = .list := by
      cases target <;> simp [Target.kind?, Value.kind] at hkind
      rfl
    exact encodeAt_seq_target_eq_ok.mpr ⟨hd, _, rfl, vs, hvs, rfl⟩
  | map entries =>
    obtain ⟨-, _, -, -, rfl⟩ := encodeAt_map_eq_ok.mp h
    exact encodeAt_map_target_eq_ok.mpr ⟨haccepts, h⟩
  | struct typeName fields =>
    obtain ⟨-, _, -, -, rfl⟩ := encodeAt_struct_eq_ok.mp h
    exact encodeAt_struct_target_eq_ok.mpr ⟨haccepts, h⟩
  | unsupported name => simp [encodeAt] at h
  | _ =>
    simp only [encodeAt, guardDepth_eq_ok, leaf_eq_ok] at h ⊢
    obtain ⟨hd, -, rfl⟩ := h
    exact ⟨hd, haccepts, rfl⟩

/-- What is encoded for a target other than any has its kind. -/
theorem kind_of_encode (htarget : target ≠ .any) (h : encode t target = .ok v) :
    target.kind? = some v.kind :=
  (Target.accepts_iff.mp (accepts_kind_of_encodeAt h)).resolve_left htarget

/-- What is encoded for a record is one. -/
theorem eq_record_of_encode (h : encode t .record = .ok v) :
    ∃ typeName attrs, v = .record typeName attrs := by
  have hkind := kind_of_encode (by decide) h
  cases v <;> simp [Target.kind?, Value.kind] at hkind
  exact ⟨_, _, rfl⟩

/-- What is encoded for a set is one. -/
theorem eq_set_of_encode (h : encode t .set = .ok v) : ∃ items, v = .set items := by
  have hkind := kind_of_encode (by decide) h
  cases v <;> simp [Target.kind?, Value.kind] at hkind
  exact ⟨_, rfl⟩

end HostTree

open HostTree

variable {t : HostTree} {e : ConvertError}

/-- The parts of a record are those of what is encoded for a record. -/
theorem encodeRecord_eq_ok {typeName : String} {attrs : Attributes} :
    encodeRecord t = .ok (typeName, attrs) ↔ encode t .record = .ok (.record typeName attrs) := by
  unfold encodeRecord
  rw [bind_eq_ok]
  constructor
  · rintro ⟨v, hv, h⟩
    obtain ⟨_, _, rfl⟩ := eq_record_of_encode hv
    cases h
    exact hv
  · intro h
    exact ⟨_, h, rfl⟩

/-- Asking for the parts of a record fails as encoding for a record does, and in no other way. -/
theorem encodeRecord_eq_error : encodeRecord t = .error e ↔ encode t .record = .error e := by
  unfold encodeRecord
  rw [bind_eq_error]
  refine ⟨?_, .inl⟩
  rintro (h | ⟨v, hv, h⟩)
  · exact h
  · obtain ⟨_, _, rfl⟩ := eq_record_of_encode hv
    cases h

/-- Whatever is no sequence loses nothing as a set. -/
theorem encodeSetCounting_of_ne_seq (h : ∀ items, t ≠ seq items) :
    encodeSetCounting t = encode t .set >>= fun v => match v with
      | .set set => .ok (set, 0)
      | v => .error (.wrongTarget ("script " ++ v.typeName) .set) := by
  cases t with
  | seq items => exact absurd rfl (h items)
  | _ => rfl

/-- For a set a sequence is encoded item by item. -/
theorem encode_seq_set (items : List HostTree) :
    encode (seq items) .set = do return .set (Elements.ofList (← encodeItems items 1 0)) :=
  encodeAt_seq rfl 0

theorem encodeSetCounting_seq (items : List HostTree) :
    encodeSetCounting (seq items) = do
      let vs ← encodeItems items 1 0
      return (Elements.ofList vs, vs.length - (Elements.ofList vs).length) :=
  rfl

/-- The set that is counted is what is encoded for a set. -/
theorem exists_encodeSetCounting_eq_ok {s : Elements} :
    (∃ n, encodeSetCounting t = .ok (s, n)) ↔ encode t .set = .ok (.set s) := by
  by_cases hseq : ∃ items, t = seq items
  · obtain ⟨items, rfl⟩ := hseq
    simp only [encode_seq_set, encodeSetCounting_seq, bind_eq_ok, pure_eq_ok, Prod.mk.injEq,
      Value.set.injEq]
    constructor
    · rintro ⟨_, vs, hvs, hset, -⟩
      exact ⟨vs, hvs, hset⟩
    · rintro ⟨vs, hvs, hset⟩
      exact ⟨_, vs, hvs, hset, rfl⟩
  · rw [encodeSetCounting_of_ne_seq fun items h => hseq ⟨items, h⟩]
    simp only [bind_eq_ok]
    constructor
    · rintro ⟨n, v, hv, h⟩
      obtain ⟨_, rfl⟩ := eq_set_of_encode hv
      cases h
      exact hv
    · intro h
      exact ⟨0, _, h, rfl⟩

/-- Counting fails as encoding for a set does, and in no other way. -/
theorem encodeSetCounting_eq_error :
    encodeSetCounting t = .error e ↔ encode t .set = .error e := by
  by_cases hseq : ∃ items, t = seq items
  · obtain ⟨items, rfl⟩ := hseq
    rw [encode_seq_set, encodeSetCounting_seq, bind_pure_eq_error, bind_pure_eq_error]
  · rw [encodeSetCounting_of_ne_seq fun items h => hseq ⟨items, h⟩, bind_eq_error]
    refine ⟨?_, .inl⟩
    rintro (h | ⟨v, hv, h⟩)
    · exact h
    · obtain ⟨_, rfl⟩ := eq_set_of_encode hv
      cases h

/-- **Targets are honoured.** What is encoded for a target other than any is of the target's kind,
and so never null. Asking for the parts of a record, or for a set and its count, gives the parts of
what is encoded for a record or a set, and fails as that does: there is no failure of its own left.
Whatever is encoded anyway, unless it is null, is encoded for the target of its kind too. And for a
target nothing else is encoded than anyway, but that the items of a sequence become a tuple, or a
set of the first occurrences of those that are hashable. -/
theorem HostTree.encode_honours_targets (t : HostTree)
    (hscripts : ∀ v, Inside (script v) t → v.WellFormed) :
    (∀ target v, target ≠ .any → encode t target = .ok v →
      target.kind? = some v.kind ∧ v ≠ .null) ∧
    ((∀ typeName attrs, encodeRecord t = .ok (typeName, attrs) ↔
        encode t .record = .ok (.record typeName attrs)) ∧
      ∀ e, encodeRecord t = .error e ↔ encode t .record = .error e) ∧
    ((∀ s, (∃ n, encodeSetCounting t = .ok (s, n)) ↔ encode t .set = .ok (.set s)) ∧
      ∀ e, encodeSetCounting t = .error e ↔ encode t .set = .error e) ∧
    (∀ v, encode t .any = .ok v → v ≠ .null →
      ∃ target, v.kind.target? = some target ∧ encode t target = .ok v) ∧
    ∀ target v, target ≠ .any → encode t target = .ok v →
      encode t .any = .ok v ∨ ∃ xs, encode t .any = .ok (.list xs) ∧
        (target = .tuple ∧ v = .tuple xs ∨
          target = .set ∧ v = .set (firstOccurrences Value.same (xs.filter Value.hashable))) := by
  refine ⟨fun target v htarget hv => ?_, ⟨fun _ _ => encodeRecord_eq_ok, fun _ =>
    encodeRecord_eq_error⟩, ⟨fun _ => exists_encodeSetCounting_eq_ok, fun _ =>
    encodeSetCounting_eq_error⟩, fun v hv hnull => ?_, fun target v _ hv => ?_⟩
  · have hkind := kind_of_encode htarget hv
    refine ⟨hkind, ?_⟩
    rintro rfl
    -- null has no target
    cases target <;> cases hkind
  · obtain ⟨target, htarget⟩ := Option.ne_none_iff_exists'.mp
      (Kind.target?_eq_none.not.mpr (Value.kind_eq_null.not.mpr hnull))
    exact ⟨target, htarget, encodeAt_target_of_kind hv (Kind.target?_eq_some.mp htarget)⟩
  · rcases encodeAt_of_target hv with hany | ⟨xs, hany, hmade⟩
    · exact .inl hany
    · have hitems : ∀ x ∈ xs, x.WellFormed := (wellFormed_of_encodeAt hscripts hany).of_mem_members
      rw [Elements.ofList_eq_firstOccurrences hitems] at hmade
      exact .inr ⟨xs, hany, hmade⟩

/-- A sequence that holds a NaN twice and a sequence: as a set it is one NaN, as anything else it is
a list, and it is no record. -/
theorem HostTree.encode_honours_targets_nan :
    let nan := Binary.nan .double
    let t := seq [float nan, seq [nil], float nan]
    let xs := [Value.float nan, .list [.null], .float nan]
    (∀ v, Inside (script v) t → v.WellFormed) ∧
      (encode t .set = .ok (.set [.float nan]) ∧ Target.kind? .set = some .set ∧
        ∃ n, encodeSetCounting t = .ok ([.float nan], n)) ∧
      (encode t .any = .ok (.list xs) ∧
        ∃ target, Kind.list.target? = some target ∧ encode t target = .ok (.list xs)) ∧
      firstOccurrences Value.same (xs.filter Value.hashable) = [.float nan] ∧
      ∃ e, encode t .record = .error e ∧ encodeRecord t = .error e := by
  intro nan t xs
  have hfree (v : Value) : ¬ Inside (script v) t := by
    simp only [t, inside_script_seq, List.exists_mem_cons_iff, List.not_mem_nil, not_or]
    and_intros <;> nofun
  have hscripts : ∀ v, Inside (script v) t → v.WellFormed := fun v h => absurd h (hfree v)
  obtain ⟨hkind, ⟨-, hrecord⟩, ⟨hset, -⟩, hany, htarget⟩ := encode_honours_targets t hscripts
  have hencoded : encode t .set = .ok (.set [.float nan]) := rfl
  have hlist : encode t .any = .ok (.list xs) := rfl
  refine ⟨hscripts, ⟨hencoded, (hkind .set _ (by decide) hencoded).1, (hset _).mpr hencoded⟩,
    ⟨hlist, hany _ hlist nofun⟩, ?_, _, rfl, (hrecord _).mpr rfl⟩
  rcases htarget .set _ (by decide) hencoded with h | ⟨xs', hxs, ⟨h, -⟩ | ⟨-, h⟩⟩
  · cases hlist.symm.trans h
  · cases h
  · obtain rfl : xs = xs' := Value.list.inj (Except.ok.inj (hlist.symm.trans hxs))
    exact (Value.set.inj h).symm

end ScriptBridge
