import ScriptBridge.Proofs.Encoding.Domain
import ScriptBridge.Proofs.Encoding.Targets

/-!
# What a set drops

A set that is made of a sequence keeps the items that are hashable and the same as no earlier item,
and says nothing of the others. The count accounts for them: one part of what is dropped was
unhashable, the other part was there already. An unhashable item is never the same as a hashable
one, so that it makes no difference whether it counts as an earlier item.

The encoder carries the count through everything that it encodes, and could so add what nested
sequences drop. It does not, since they never become sets.

- `Elements.repeats`: how many hashable items are the same as an earlier one.
- `Elements.filter_firstOccurrences`, `Elements.dropped_add_kept`: unhashable items may be left out
  before or after, and nothing is lost from the account.
- `HostTree.FirstFailure`, `HostTree.encodeItems_eq_error`: items fail as the first of them that
  does.
- `HostTree.tooDeep_of_encode_eq_ok`: an item that can be encoded on its own can only be too deep.
- `HostTree.tallyAt`: the encoder with a count of what sets have dropped so far.
- `HostTree.uncounted`, `encodeSetCounting_eq_tallyAt`: the count does not change unless the target
  is a set, so that it is the one that is taken at the end of a sequence.
- `HostTree.encodeSetCounting_exact`: all of this of whole sequences.
-/

namespace ScriptBridge

namespace Elements

/-- How many hashable items are the same as an earlier one. -/
def repeats (items : List Value) : Nat :=
  items.zipIdx.countP fun p => p.1.hashable && (items.take p.2).any (Value.same p.1)

/-- Whether a hashable item is there already is a matter of hashable items alone. -/
theorem any_same_filter_hashable {items : List Value} {x : Value} (hx : x.WellFormed)
    (hhash : x.hashable = true) (hitems : ∀ y ∈ items, y.WellFormed) :
    (items.filter Value.hashable).any (Value.same x) = items.any (Value.same x) := by
  rw [Bool.eq_iff_iff, List.any_eq_true, List.any_eq_true]
  constructor
  · rintro ⟨y, hy, hsame⟩
    exact ⟨y, List.mem_of_mem_filter hy, hsame⟩
  · rintro ⟨y, hy, hsame⟩
    have hhash' : y.hashable = true := (hx.hashable_eq_of_same (hitems y hy) hsame) ▸ hhash
    exact ⟨y, List.mem_filter.mpr ⟨hy, hhash'⟩, hsame⟩

/-- The first occurrences of hashable items are the first occurrences that are hashable. -/
theorem filter_firstOccurrences {items : List Value} (hitems : ∀ v ∈ items, v.WellFormed) :
    (firstOccurrences Value.same items).filter Value.hashable =
      firstOccurrences Value.same (items.filter Value.hashable) := by
  induction items using List.reverseRecOn with
  | nil => rfl
  | append_singleton items x ih =>
    obtain ⟨hinit, hx⟩ := List.forall_mem_append.mp hitems
    rw [firstOccurrences_concat, List.filter_append]
    cases hhash : x.hashable with
    | false =>
      rw [List.filter_cons_of_neg (by simp [hhash]), List.filter_nil, List.append_nil, ← ih hinit]
      split <;> simp [hhash]
    | true =>
      rw [List.filter_cons_of_pos hhash, List.filter_nil, firstOccurrences_concat,
        any_same_filter_hashable (hx x (by simp)) hhash hinit, ← ih hinit]
      split <;> simp [hhash]

/-- Members fail a first test, or pass it and a second one, or pass the first one alone. -/
theorem countP_add_countP_add_countP {α : Type} (p q : α → Bool) (l : List α) :
    l.countP (fun a => !p a) + l.countP (fun a => p a && q a) + l.countP (fun a => p a && !q a) =
      l.length := by
  induction l with
  | nil => rfl
  | cons a l ih =>
    simp only [List.countP_cons, List.length_cons]
    cases p a <;> cases q a <;> simp <;> omega

/-- What is dropped is unhashable or there already, and everything else is kept. -/
theorem dropped_add_kept (items : List Value) :
    items.countP (fun v => !v.hashable) + repeats items +
      ((firstOccurrences Value.same items).filter Value.hashable).length = items.length := by
  have hunhashable : items.countP (fun v => !v.hashable) =
      items.zipIdx.countP fun p => !p.1.hashable := by
    conv_lhs => rw [← List.zipIdx_map_fst 0 items, List.countP_map]
    rfl
  have hkept : ((firstOccurrences Value.same items).filter Value.hashable).length =
      items.zipIdx.countP fun p =>
        p.1.hashable && !(items.take p.2).any (Value.same p.1) := by
    rw [firstOccurrences, List.filter_map, List.length_map, List.filter_filter,
      List.countP_eq_length_filter]
    rfl
  rw [hunhashable, repeats, hkept, countP_add_countP_add_countP, List.length_zipIdx]

end Elements

namespace HostTree

/-! ## Failures -/

/-- All items before one are encoded, and the error is that of this one, at its index. -/
def FirstFailure (items : List HostTree) (depth index : Nat) (e : ConvertError) : Prop :=
  ∃ before t after cause, items = before ++ t :: after ∧
    (∀ s ∈ before, ∃ x, encodeAt s .any depth = .ok x) ∧
    encodeAt t .any depth = .error cause ∧ e = .within (.item (index + before.length)) cause

theorem encodeItems_eq_error {items : List HostTree} {depth index : Nat} {e : ConvertError} :
    encodeItems items depth index = .error e ↔ FirstFailure items depth index e := by
  induction items generalizing index with
  | nil => simp [encodeItems, FirstFailure]
  | cons t rest ih =>
    have hindex (before : List HostTree) :
        index + (t :: before).length = index + 1 + before.length := by
      rw [List.length_cons, Nat.add_right_comm, Nat.add_assoc]
    rw [encodeItems, bind_eq_error]
    simp only [ConvertError.locate_eq_error, ConvertError.locate_eq_ok, bind_pure_eq_error, ih,
      FirstFailure, exists_and_left, exists_split_cons, List.forall_mem_cons, hindex]
    refine or_congr (by simp) ?_
    constructor
    · rintro ⟨x, hx, before, t', after, hsplit, hbefore, hfails⟩
      exact ⟨before, t', after, hsplit, ⟨⟨x, hx⟩, hbefore⟩, hfails⟩
    · rintro ⟨before, t', after, hsplit, ⟨⟨x, hx⟩, hbefore⟩, hfails⟩
      exact ⟨x, hx, before, t', after, hsplit, hbefore, hfails⟩

/-- What can be encoded on its own can only be too deep inside containers. -/
theorem tooDeep_of_encode_eq_ok {t : HostTree} {depth : Nat} {x : Value} {e : ConvertError}
    (h : encode t .any = .ok x) (he : encodeAt t .any depth = .error e) :
    e.root = .tooDeep maxDepth := by
  refine (tooDeep_of_encodeAt (supported_of_encode h) (fun key hkey w hw => ?_)
    (namesValid_of_encode h) he).1
  obtain ⟨k, hk, hhash⟩ := key_of_encode h hkey
  rwa [Except.ok.inj (hw.symm.trans hk)]

/-! ## The count

The encoder carries a count through everything that it encodes, and adds to it what a set drops. -/

mutual

/-- The value of a tree, with the count of what sets have dropped, before the tree and in it. -/
def tallyAt : HostTree → Target → Nat → Nat → Except ConvertError (Value × Nat)
  | seq items, target, depth, count =>
    guardDepth depth <|
      match target.ofItems? with
      | some build => do
        let (vs, count) ← tallyItems items (depth + 1) 0 count
        let dropped := if target = .set then vs.length - (Elements.ofList vs).length else 0
        return (build vs, count + dropped)
      | none => .error (.wrongTarget "native sequence" target)
  | map entries, target, depth, count =>
    guardDepth depth <|
      if target.accepts .dict then do
        let (dict, count) ← tallyEntries entries (depth + 1) [] count
        return (.dict dict, count)
      else .error (.wrongTarget "native map" target)
  | struct typeName fields, target, depth, count =>
    guardDepth depth <|
      if target.accepts .record then do
        let (attrs, count) ← tallyFields typeName fields (depth + 1) [] count
        return (.record typeName attrs, count)
      else .error (.wrongTarget ("native struct " ++ typeName) target)
  | t, target, depth, count => return (← encodeAt t target depth, count)

/-- The values of items, the first of which has an index, with the count. -/
def tallyItems : List HostTree → Nat → Nat → Nat → Except ConvertError (List Value × Nat)
  | [], _, _, count => .ok ([], count)
  | t :: rest, depth, index, count => do
    let (item, count) ← ConvertError.locate (.item index) (tallyAt t .any depth count)
    let (items, count) ← tallyItems rest depth (index + 1) count
    return (item :: items, count)

/-- A dict with the values of entries, with the count. -/
def tallyEntries :
    List (HostTree × HostTree) → Nat → Dict → Nat → Except ConvertError (Dict × Nat)
  | [], _, dict, count => .ok (dict, count)
  | (k, v) :: rest, depth, dict, count => do
    let (key, count) ← ConvertError.locate .someKey (tallyAt k .any depth count)
    let (value, count) ← ConvertError.locate (.entry key) (tallyAt v .any depth count)
    let (dict, _) ← ConvertError.locate (.key key) (ConvertError.lift (dict.insert key value))
    tallyEntries rest depth dict count

/-- Attributes with the values of fields, with the count. -/
def tallyFields (typeName : String) :
    List (String × HostTree) → Nat → Attributes → Nat → Except ConvertError (Attributes × Nat)
  | [], _, attrs, count => .ok (attrs, count)
  | (name, t) :: rest, depth, attrs, count => do
    let (value, count) ← ConvertError.locate (.attr typeName name) (tallyAt t .any depth count)
    let attrs ← ConvertError.lift (attrs.set name value)
    tallyFields typeName rest depth attrs count

end

/-- Encoding a tree that no target asks for leaves every count as it is. -/
def Uncounted (t : HostTree) : Prop :=
  ∀ depth count, tallyAt t .any depth count = (encodeAt t .any depth).map (·, count)

theorem tallyItems_eq {items : List HostTree} (h : ∀ t ∈ items, t.Uncounted)
    (depth index count : Nat) :
    tallyItems items depth index count = (encodeItems items depth index).map (·, count) := by
  induction items generalizing index with
  | nil => rfl
  | cons t rest ih =>
    obtain ⟨ht, hrest⟩ := List.forall_mem_cons.mp h
    rw [tallyItems, encodeItems, ht]
    cases encodeAt t .any depth with
    | error e => rfl
    | ok item =>
      simp only [Except.map, ConvertError.locate, Except.bind, bind, ih hrest]
      cases encodeItems rest depth (index + 1) <;> rfl

theorem tallyEntries_eq {entries : List (HostTree × HostTree)}
    (h : ∀ e ∈ entries, e.1.Uncounted ∧ e.2.Uncounted) (depth : Nat) (dict : Dict) (count : Nat) :
    tallyEntries entries depth dict count = (encodeEntries entries depth dict).map (·, count) := by
  induction entries generalizing dict with
  | nil => rfl
  | cons e rest ih =>
    obtain ⟨k, v⟩ := e
    obtain ⟨⟨hk, hv⟩, hrest⟩ := List.forall_mem_cons.mp h
    rw [tallyEntries, encodeEntries, hk]
    cases encodeAt k .any depth with
    | error e => rfl
    | ok key =>
      simp only [Except.map, ConvertError.locate, Except.bind, bind]
      rw [hv]
      cases encodeAt v .any depth with
      | error e => rfl
      | ok value =>
        simp only [Except.map]
        cases dict.insert key value with
        | error e => rfl
        | ok r => exact ih hrest r.1

theorem tallyFields_eq {typeName : String} {fields : List (String × HostTree)}
    (h : ∀ f ∈ fields, f.2.Uncounted) (depth : Nat) (attrs : Attributes) (count : Nat) :
    tallyFields typeName fields depth attrs count =
      (encodeFields typeName fields depth attrs).map (·, count) := by
  induction fields generalizing attrs with
  | nil => rfl
  | cons f rest ih =>
    obtain ⟨name, t⟩ := f
    obtain ⟨ht, hrest⟩ := List.forall_mem_cons.mp h
    rw [tallyFields, encodeFields, ht]
    cases encodeAt t .any depth with
    | error e => rfl
    | ok value =>
      simp only [Except.map, ConvertError.locate, Except.bind, bind]
      cases attrs.set name value with
      | error e => rfl
      | ok attrs => exact ih hrest attrs

theorem guardDepth_map {α β : Type} (f : α → β) (depth : Nat) (result : Except ConvertError α) :
    (guardDepth depth result).map f = guardDepth depth (result.map f) := by
  unfold guardDepth
  split <;> rfl

/-- Nothing is counted but where a target asks for a set. -/
theorem uncounted (t : HostTree) : t.Uncounted := by
  intro depth count
  induction t generalizing depth count with
  | seq items ih =>
    -- any makes a list of a sequence, so that nothing is dropped here
    rw [tallyAt, encodeAt_seq rfl, guardDepth_map]
    congr 1
    simp only [Target.ofItems?, tallyItems_eq fun t ht depth count => ih t ht depth count]
    cases encodeItems items (depth + 1) 0 <;> rfl
  | map entries ih =>
    rw [tallyAt, encodeAt, guardDepth_map]
    congr 1
    simp only [tallyEntries_eq fun e he => ⟨fun d n => (ih e he).1 d n, fun d n => (ih e he).2 d n⟩]
    cases encodeEntries entries (depth + 1) [] <;> rfl
  | struct typeName fields ih =>
    rw [tallyAt, encodeAt, guardDepth_map]
    congr 1
    simp only [tallyFields_eq fun f hf d n => ih f hf d n]
    cases encodeFields typeName fields (depth + 1) [] <;> rfl
  | _ => rfl

/-- A set adds to the count what it has dropped of its own items, and nothing else. -/
theorem tallyAt_seq_set (items : List HostTree) (count : Nat) :
    tallyAt (seq items) .set 0 count = (encodeItems items 1 0).map fun vs =>
      (.set (Elements.ofList vs), count + (vs.length - (Elements.ofList vs).length)) := by
  rw [tallyAt]
  simp only [Target.ofItems?, tallyItems_eq fun t _ => t.uncounted]
  cases encodeItems items 1 0 <;> rfl

end HostTree

open HostTree

/-- The set and its count are those of the encoder that carries the count. -/
theorem encodeSetCounting_eq_tallyAt (t : HostTree) :
    encodeSetCounting t = tallyAt t .set 0 0 >>= fun r => match r with
      | (.set set, count) => .ok (set, count)
      | (v, _) => .error (.wrongTarget ("script " ++ v.typeName) .set) := by
  cases t with
  | seq items =>
    simp only [encodeSetCounting_seq, tallyAt_seq_set, Nat.zero_add]
    cases encodeItems items 1 0 <;> rfl
  | map entries => rfl
  | struct typeName fields => rfl
  | _ =>
    rw [tallyAt]
    · rw [encodeSetCounting_of_ne_seq (by simp), encode]
      cases encodeAt _ .set 0 with
      | error e => rfl
      | ok v => cases v <;> rfl
    all_goals simp

/-- **A set accounts for every item.** Whenever the items of a sequence are encoded where they
stand, the set is that of the items that are hashable and the same as no earlier item, in their
order, and the count is that of unhashable items and of hashable ones that are the same as an
earlier item. Together these are all the items, encoding for a set gives the same set, and the
encoder that carries a count through the items, whatever is nested in them, ends with the same
count. The only failures are those of items, and the error is that of the first one, with its index.
An item is encoded inside one container as it is on its own, unless it is too deep there. -/
theorem HostTree.encodeSetCounting_exact (items : List HostTree)
    (hscripts : ∀ v, Inside (script v) (seq items) → v.WellFormed) :
    (∀ xs, List.Forall₂ (fun t x => encodeAt t .any 1 = .ok x) items xs →
      let kept := (firstOccurrences Value.same xs).filter Value.hashable
      let dropped := xs.countP (fun x => !x.hashable) + Elements.repeats xs
      encodeSetCounting (seq items) = .ok (kept, dropped) ∧
        encode (seq items) .set = .ok (.set kept) ∧
        tallyAt (seq items) .set 0 0 = .ok (.set kept, dropped) ∧
        dropped + kept.length = items.length) ∧
    (∀ e, (encodeSetCounting (seq items) = .error e ↔ FirstFailure items 1 0 e) ∧
      (encode (seq items) .set = .error e ↔ FirstFailure items 1 0 e)) ∧
    ∀ t ∈ items, (∀ x, encodeAt t .any 1 = .ok x → encode t .any = .ok x) ∧
      ∀ x cause, encode t .any = .ok x → encodeAt t .any 1 = .error cause →
        cause.root = .tooDeep maxDepth := by
  refine ⟨fun xs hxs => ?_, fun e => ⟨?_, ?_⟩, fun t _ => ⟨fun x hx => encode_eq_ok_of_encodeAt hx,
    fun x cause hx hcause => tooDeep_of_encode_eq_ok hx hcause⟩⟩
  · have hany : encodeAt (seq items) .any 0 = .ok (.list xs) :=
      encodeAt_seq_eq_ok.mpr ⟨Nat.zero_le _, xs, hxs, rfl⟩
    have hwell : ∀ x ∈ xs, x.WellFormed := (wellFormed_of_encodeAt hscripts hany).of_mem_members
    have hitems : encodeItems items 1 0 = .ok xs := encodeItems_eq_ok.mpr hxs
    intro kept dropped
    have hkept : Elements.ofList xs = kept := by
      rw [Elements.ofList_eq_firstOccurrences hwell, ← Elements.filter_firstOccurrences hwell]
    -- the encoder subtracts, and the account says what is left
    have hlength : dropped + kept.length = xs.length := Elements.dropped_add_kept xs
    have hdropped : xs.length - kept.length = dropped := by omega
    have hcounting : encodeSetCounting (seq items) = .ok (kept, dropped) := by
      rw [encodeSetCounting_seq, hitems, ← hdropped, ← hkept]
      rfl
    have hset : encode (seq items) .set = .ok (.set kept) := by
      rw [encode_seq_set, hitems, ← hkept]
      rfl
    have htally : tallyAt (seq items) .set 0 0 = .ok (.set kept, dropped) := by
      rw [tallyAt_seq_set, hitems, Except.map, hkept, hdropped, Nat.zero_add]
    exact ⟨hcounting, hset, htally, hxs.length_eq ▸ hlength⟩
  · rw [encodeSetCounting_eq_error, encode_seq_set, bind_pure_eq_error, encodeItems_eq_error]
  · rw [encode_seq_set, bind_pure_eq_error, encodeItems_eq_error]

/-- Eight items, of which three are kept: a NaN, a zero and a record. The other NaN, the other zero
and the record in another order were there already, and the two sequences are unhashable, whatever
they repeat. With a channel among them it fails at the channel. -/
theorem HostTree.encodeSetCounting_exact_nan :
    let nan := Binary.nan .double
    let zero (negative : Bool) := Binary.ofCode .double negative 0
    let head := [float nan, seq [bool true, bool true], float (zero false)]
    let tail := [float nan, float (zero true), struct "P" [("x", nil), ("y", bool true)],
      struct "P" [("y", bool true), ("x", nil)], seq []]
    let xs := [Value.float nan, .list [.bool true, .bool true], .float (zero false), .float nan,
      .float (zero true), .record "P" [("x", .null), ("y", .bool true)],
      .record "P" [("y", .bool true), ("x", .null)], .list []]
    let kept := [Value.float nan, .float (zero false),
      .record "P" [("x", .null), ("y", .bool true)]]
    ((∀ v, Inside (script v) (seq (head ++ tail)) → v.WellFormed) ∧
      List.Forall₂ (fun t x => encodeAt t .any 1 = .ok x) (head ++ tail) xs ∧
      encodeSetCounting (seq (head ++ tail)) = .ok (kept, 2 + 3)) ∧
    ((∀ v, Inside (script v) (seq (head ++ unsupported "channel" :: tail)) → v.WellFormed) ∧
      encodeSetCounting (seq (head ++ unsupported "channel" :: tail)) =
        .error (.within (.item 3) (.unsupported "channel"))) := by
  intro nan zero head tail xs kept
  have hfree : ∀ t ∈ unsupported "channel" :: (head ++ tail), ∀ v, ¬ Inside (script v) t := by
    simp only [head, tail, List.cons_append, List.nil_append, List.forall_mem_cons,
      inside_script_seq, inside_script_struct, List.exists_mem_cons_iff, List.not_mem_nil, not_or,
      forall_and]
    and_intros <;> nofun
  have hscripts (items : List HostTree)
      (hitems : items ⊆ unsupported "channel" :: (head ++ tail)) (v : Value)
      (h : Inside (script v) (seq items)) : v.WellFormed :=
    have ⟨t, ht, below⟩ := inside_script_seq.mp h
    absurd below (hfree t (hitems ht) v)
  have hhead := hscripts (head ++ tail) (List.subset_cons_self _ _)
  have hchannel := hscripts (head ++ unsupported "channel" :: tail)
    List.perm_middle.subset
  have hxs : List.Forall₂ (fun t x => encodeAt t .any 1 = .ok x) (head ++ tail) xs :=
    encodeItems_eq_ok.mp (rfl : encodeItems (head ++ tail) 1 0 = .ok xs)
  have hkept : (firstOccurrences Value.same xs).filter Value.hashable = kept := rfl
  have hdropped : xs.countP (fun x => !x.hashable) + Elements.repeats xs = 2 + 3 := by decide
  refine ⟨⟨hhead, hxs, ?_⟩, hchannel, ?_⟩
  · rw [((encodeSetCounting_exact _ hhead).1 xs hxs).1, hkept, hdropped]
  · refine ((encodeSetCounting_exact _ hchannel).2.1 _).1.mpr
      ⟨head, _, tail, _, rfl, fun t ht => ?_, rfl, rfl⟩
    exact forall₂_exists_iff.mp ⟨xs, hxs⟩ t (List.mem_append_left _ ht)

end ScriptBridge
