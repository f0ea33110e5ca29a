import ScriptBridge.Proofs.Encoding.Open
import ScriptBridge.Proofs.Value.Histories

/-!
# Encoders make well-formed values

There are four ways in which an encoder fills a container, and each meets bad members in its own
manner. Keys of a map that encode to the same value overwrite each other, as do fields of one name;
a key that is unhashable and a name that is no identifier end the encoding; and a set drops what it
cannot hold. None of this asks anything of the shape that is encoded, but that script values inside
it are well formed.

- `HostTree.wellFormed_of_encodeAt`, `HostTree.wellFormed_of_openAt`: the invariant at every depth.
- `HostTree.encode_wellFormed`: whole values, for every target and for both encoders.
-/

namespace ScriptBridge

namespace HostTree

variable {t : HostTree} {depth : Nat} {w : Value}

/-- What the strict encoder gives when no target asks for anything is well formed. -/
theorem wellFormed_of_encodeAt (hscripts : ∀ v, Inside (script v) t → v.WellFormed)
    (h : encodeAt t .any depth = .ok w) : w.WellFormed := by
  induction t generalizing depth w with
  | seq items ih =>
    obtain ⟨-, vs, hvs, rfl⟩ := encodeAt_seq_eq_ok.mp h
    refine .list fun v hv => ?_
    obtain ⟨t, ht, hencode⟩ := forall₂_exists_left hvs v hv
    exact ih t ht (fun v hv => hscripts v (.item ht hv)) hencode
  | map entries ih =>
    obtain ⟨-, pairs, hpairs, hhash, rfl⟩ := encodeAt_map_eq_ok.mp h
    refine Value.wellFormed_dict_putAll (fun p hp => ?_) hhash
    obtain ⟨e, he, hkey, hvalue⟩ := forall₂_exists_left hpairs p hp
    exact ⟨(ih e he).1 (fun v hv => hscripts v (.key he hv)) hkey,
      (ih e he).2 (fun v hv => hscripts v (.value he hv)) hvalue⟩
  | struct typeName fields ih =>
    obtain ⟨-, attrs, hattrs, hnames, rfl⟩ := encodeAt_struct_eq_ok.mp h
    refine Value.wellFormed_record_putAll (fun a ha => ?_) hnames
    obtain ⟨f, hf, -, hencode⟩ := forall₂_exists_left hattrs a ha
    exact ih f hf (fun v hv => hscripts v (.field hf hv)) hencode
  | script v =>
    simp only [encodeAt, guardDepth_eq_ok, leaf_eq_ok] at h
    rw [h.2.2]
    exact hscripts v (.self _)
  | unsupported name => simp [encodeAt] at h
  | _ =>
    simp only [encodeAt, guardDepth_eq_ok, leaf_eq_ok] at h
    rw [h.2.2]
    constructor

/-- What the open encoder gives is well formed. Sorting the entries of a map does not matter to
it. -/
theorem wellFormed_of_openAt (hscripts : ∀ v, Inside (script v) t → v.WellFormed)
    (h : openAt t depth = .ok w) : w.WellFormed := by
  induction t generalizing depth w with
  | seq items ih =>
    obtain ⟨-, vs, hvs, rfl⟩ := openAt_seq_eq_ok.mp h
    refine .list fun v hv => ?_
    obtain ⟨t, ht, hopen⟩ := forall₂_exists_left hvs v hv
    exact ih t ht (fun v hv => hscripts v (.item ht hv)) hopen
  | map entries ih =>
    obtain ⟨-, pairs, hpairs, d, hd, rfl⟩ := openAt_map_eq_ok.mp h
    obtain ⟨hhash, rfl⟩ := Dict.ofUnsorted_eq_ok.mp hd
    refine Value.wellFormed_dict_putAll (fun p hp => ?_) fun p hp =>
      hhash p (List.mem_mergeSort.mp hp)
    obtain ⟨e, he, hkey, hvalue⟩ := forall₂_exists_left hpairs p (List.mem_mergeSort.mp hp)
    exact ⟨(ih e he).1 (fun v hv => hscripts v (.key he hv)) hkey,
      (ih e he).2 (fun v hv => hscripts v (.value he hv)) hvalue⟩
  | struct typeName fields => exact absurd h openAt_struct_ne_ok
  | script v =>
    simp only [openAt, guardDepth_eq_ok, Except.ok.injEq] at h
    rw [← h.2]
    exact hscripts v (.self _)
  | unsupported name => simp [openAt] at h
  | float x =>
    simp only [openAt, guardDepth_eq_ok, Except.ok.injEq] at h
    rw [← h.2, openNumber]
    cases x.integral? with
    | none => exact .float x
    | some n => exact .int n
  | _ =>
    simp only [openAt, guardDepth_eq_ok, Except.ok.injEq] at h
    rw [← h.2]
    constructor

/-- **Encoders make well-formed values**, whatever the shape, if the script values inside it are
well formed: for every target, and by the conventions of JSON. -/
theorem encode_wellFormed (hscripts : ∀ v, Inside (script v) t → v.WellFormed) :
    (∀ target w, encode t target = .ok w → w.WellFormed) ∧
      ∀ w, encodeOpen t = .ok w → w.WellFormed := by
  refine ⟨fun target w hw => ?_, fun w hw => wellFormed_of_openAt hscripts hw⟩
  rcases encodeAt_of_target hw with hany | ⟨vs, hany, hmade⟩
  · exact wellFormed_of_encodeAt hscripts hany
  · have hitems : ∀ v ∈ vs, v.WellFormed := (wellFormed_of_encodeAt hscripts hany).of_mem_members
    rcases hmade with ⟨-, rfl⟩ | ⟨-, rfl⟩
    · exact .tuple hitems
    · rw [Elements.ofList_eq_after, Elements.after_eq_insertAll]
      exact Value.wellFormed_set_insertAll (fun v hv => hitems v (List.mem_of_mem_filter hv))
        fun v hv => (List.mem_filter.mp hv).2

/-- A sequence of a struct with two fields of one name, of a map with two keys that become one
number, and of that map again, as a set: the record is hashable and stays, the dicts are dropped. -/
theorem encode_wellFormed_collisions :
    let nan : Value := .float (.nan .double)
    let point := struct "Point" [("x", .signed 1), ("x", .script (.tuple [nan]))]
    let counts := map [(.signed 1, .nil), (.unsigned 1, .str "one")]
    (∀ v, Inside (script v) (seq [point, counts, counts]) → v.WellFormed) ∧
      encode (seq [point, counts, counts]) .set =
        .ok (.set [.record "Point" [("x", .tuple [nan])]]) ∧
      (Value.set [.record "Point" [("x", .tuple [nan])]]).WellFormed ∧
      encodeOpen counts = .ok (.dict [(.int 1, .text "one")]) ∧
      (Value.dict [(.int 1, .text "one")]).WellFormed := by
  intro nan point counts
  have hcounts : ∀ v, ¬ Inside (script v) counts := by
    intro v (hinside : Inside _ (map _))
    cases hinside with
    | key h below | value h below => rcases List.mem_pair.mp h with rfl | rfl <;> cases below
  have hpoint : ∀ v, Inside (script v) point → v.WellFormed := by
    intro v (hinside : Inside _ (struct _ _))
    cases hinside with
    | field h below =>
      rcases List.mem_pair.mp h with rfl | rfl
      · cases below
      · cases below
        exact .tuple (by simp [nan, Value.WellFormed.float])
  have hseq : ∀ v, Inside (script v) (seq [point, counts, counts]) → v.WellFormed := by
    intro v hinside
    cases hinside with
    | item h below =>
      simp only [List.mem_cons, List.not_mem_nil, or_false, or_self] at h
      rcases h with rfl | rfl
      · exact hpoint v below
      · exact absurd below (hcounts v)
  have hset : encode (seq [point, counts, counts]) .set =
      .ok (.set [.record "Point" [("x", .tuple [nan])]]) := rfl
  have hsorted : [(Value.int 1, Value.null), (.int 1, .text "one")].mergeSort Value.entryLe =
      [(.int 1, .null), (.int 1, .text "one")] :=
    List.mergeSort_of_pairwise (by simp [Value.entryLe_iff])
  have hopen : encodeOpen counts = .ok (.dict [(.int 1, .text "one")]) :=
    openAt_map_eq_ok.mpr ⟨by decide, [(.int 1, .null), (.int 1, .text "one")],
      .cons ⟨rfl, rfl⟩ (.cons ⟨rfl, rfl⟩ .nil), _,
      Dict.ofUnsorted_eq_ok.mpr ⟨by simp [Value.hashable], rfl⟩, by rw [hsorted]; rfl⟩
  exact ⟨hseq, hset, (encode_wellFormed hseq).1 .set _ hset, hopen,
    (encode_wellFormed fun v hv => absurd hv (hcounts v)).2 _ hopen⟩

end HostTree

end ScriptBridge
