import ScriptBridge.Proofs.Histories
import ScriptBridge.Proofs.Encoding.Strict
import ScriptBridge.Proofs.Value.Equality

/-!
# Dicts, sets and records after any history

Whatever is inserted into a dict or a set, or assigned to a record, in whatever order and with
whatever refusals in between: what the container holds afterwards can be told from the operations.
Well-formed values are those that such histories build.

- `Dict.after`, `Elements.after`, `Attributes.after`: a container after operations on an empty one.
  Each operation is refused for its own key or name alone (`Dict.decidedByInput` and its like).
- `Dict.ofEntries_eq_ok`, `Attributes.ofPairs_eq_ok`: building a container at once is a history
  without refusals.
- `containers_after_histories`: what the containers hold, and what each next operation returns.
- `Value.Built`, `Value.built_iff_wellFormed`: values that are built by operations alone are the
  well-formed values.
-/

namespace ScriptBridge

namespace Dict

/-- The dict after insertions into an empty one. -/
def after (inserts : List (Value × Value)) : Dict :=
  afterAll (fun d e => return (← d.insert e.1 e.2).1) [] inserts

theorem decidedByInput :
    DecidedByInput (fun (d : Dict) (e : Value × Value) => return (← d.insert e.1 e.2).1)
      (fun e => e.1.hashable) (fun d e => Assoc.put Value.same d e.1 e.2) := by
  intro d e
  show (Except.toOption do return (← d.insert e.1 e.2).1) = if e.1.hashable then _ else _
  unfold insert
  cases e.1.hashable <;> rfl

theorem after_eq_putAll (inserts : List (Value × Value)) :
    after inserts = Assoc.putAll Value.same [] (inserts.filter fun e => e.1.hashable) :=
  decidedByInput.afterAll_eq_foldl [] inserts

theorem after_concat (inserts : List (Value × Value)) (key value : Value) :
    after (inserts ++ [(key, value)]) =
      if key.hashable then Assoc.put Value.same (after inserts) key value else after inserts :=
  decidedByInput.afterAll_concat [] inserts (key, value)

theorem insertAll_eq_ok {d d' : Dict} {entries : List (Value × Value)} :
    insertAll d entries = .ok d' ↔
      (∀ e ∈ entries, e.1.hashable = true) ∧ d' = Assoc.putAll Value.same d entries := by
  refine run_eq_ok (fun _ => rfl) fun d e rest d' => ?_
  rw [insertAll]
  simp only [bind_eq_ok, insert_eq_ok]
  constructor
  · rintro ⟨-, ⟨hhash, rfl⟩, hrest⟩
    exact ⟨hhash, hrest⟩
  · rintro ⟨hhash, hrest⟩
    exact ⟨_, ⟨hhash, rfl⟩, hrest⟩

/-- A dict is built at once when no key is refused. -/
theorem ofEntries_eq_ok {entries : List (Value × Value)} {d : Dict} :
    ofEntries entries = .ok d ↔ (∀ e ∈ entries, e.1.hashable = true) ∧ d = after entries := by
  rw [ofEntries, insertAll_eq_ok, after_eq_putAll]
  refine and_congr_right fun h => ?_
  rw [List.filter_eq_self.mpr h]

end Dict

namespace Elements

/-- The set after insertions into an empty one. -/
def after (items : List Value) : Elements :=
  afterAll (fun s x => return (← s.insert x).1) [] items

theorem decidedByInput :
    DecidedByInput (fun (s : Elements) (x : Value) => return (← s.insert x).1) Value.hashable
      (Distinct.insert Value.same) := by
  intro s x
  show (Except.toOption do return (← s.insert x).1) = if x.hashable then _ else _
  unfold insert
  cases x.hashable <;> rfl

theorem after_eq_insertAll (items : List Value) :
    after items = Distinct.insertAll Value.same [] (items.filter Value.hashable) :=
  decidedByInput.afterAll_eq_foldl [] items

theorem after_concat (items : List Value) (x : Value) :
    after (items ++ [x]) =
      if x.hashable then Distinct.insert Value.same (after items) x else after items :=
  decidedByInput.afterAll_concat [] items x

/-- To keep what a set can hold is to insert everything and overlook what is refused. -/
theorem ofList_eq_after (items : List Value) : ofList items = after items := by
  induction items using List.reverseRecOn with
  | nil => rfl
  | append_singleton items x ih =>
    rw [ofList, List.foldl_append, after_concat, ← ih]
    rfl

end Elements

namespace Attributes

/-- The attributes after assignments to an empty record. -/
def after (pairs : List (String × Value)) : Attributes :=
  afterAll (fun attrs a => attrs.set a.1 a.2) [] pairs

theorem decidedByInput :
    DecidedByInput (fun (attrs : Attributes) (a : String × Value) => attrs.set a.1 a.2)
      (fun a => isIdentifier a.1) (fun attrs a => Assoc.put (· == ·) attrs a.1 a.2) := by
  intro attrs a
  show (attrs.set a.1 a.2).toOption = if isIdentifier a.1 then _ else _
  unfold set
  cases isIdentifier a.1 <;> rfl

theorem after_eq_putAll (pairs : List (String × Value)) :
    after pairs = Assoc.putAll (· == ·) [] (pairs.filter fun a => isIdentifier a.1) :=
  decidedByInput.afterAll_eq_foldl [] pairs

theorem after_concat (pairs : List (String × Value)) (name : String) (value : Value) :
    after (pairs ++ [(name, value)]) =
      if isIdentifier name then Assoc.put (· == ·) (after pairs) name value else after pairs :=
  decidedByInput.afterAll_concat [] pairs (name, value)

theorem setAll_eq_ok {attrs attrs' : Attributes} {pairs : List (String × Value)} :
    setAll attrs pairs = .ok attrs' ↔
      (∀ a ∈ pairs, isIdentifier a.1 = true) ∧ attrs' = Assoc.putAll (· == ·) attrs pairs := by
  refine run_eq_ok (fun _ => rfl) fun attrs a rest attrs' => ?_
  rw [setAll]
  simp only [bind_eq_ok, set_eq_ok]
  constructor
  · rintro ⟨-, ⟨hname, rfl⟩, hrest⟩
    exact ⟨hname, hrest⟩
  · rintro ⟨hname, hrest⟩
    exact ⟨_, ⟨hname, rfl⟩, hrest⟩

/-- Attributes are built at once when no name is refused. -/
theorem ofPairs_eq_ok {pairs : List (String × Value)} {attrs : Attributes} :
    ofPairs pairs = .ok attrs ↔ (∀ a ∈ pairs, isIdentifier a.1 = true) ∧ attrs = after pairs := by
  rw [ofPairs, setAll_eq_ok, after_eq_putAll]
  refine and_congr_right fun h => ?_
  rw [List.filter_eq_self.mpr h]

end Attributes

/-! ## Values that histories build -/

namespace Value

/-- A value of which every container has been built by operations on an empty one. -/
inductive Built : Value → Prop
  | null : Built null
  | bool (b : Bool) : Built (bool b)
  | int (n : Int) : Built (int n)
  | float (x : Binary64) : Built (float x)
  | text (s : String) : Built (text s)
  | bytes (bs : List UInt8) : Built (bytes bs)
  | callable (c : Callable) : Built (callable c)
  | list {items : List Value} (h : ∀ v ∈ items, Built v) : Built (list items)
  | tuple {items : List Value} (h : ∀ v ∈ items, Built v) : Built (tuple items)
  | dict {inserts : List (Value × Value)} (hkeys : ∀ e ∈ inserts, Built e.1)
      (hvalues : ∀ e ∈ inserts, Built e.2) : Built (dict (Dict.after inserts))
  | set {items : List Value} (h : ∀ x ∈ items, Built x) : Built (set (Elements.after items))
  | record {typeName : String} {pairs : List (String × Value)} (h : ∀ a ∈ pairs, Built a.2) :
      Built (record typeName (Attributes.after pairs))

theorem Built.wellFormed {v : Value} (h : v.Built) : v.WellFormed := by
  induction h with
  | list _ ih => exact .list ih
  | tuple _ ih => exact .tuple ih
  | dict _ _ ihkeys ihvalues =>
    rw [Dict.after_eq_putAll]
    exact wellFormed_dict_putAll
      (fun p hp => ⟨ihkeys p (List.mem_of_mem_filter hp), ihvalues p (List.mem_of_mem_filter hp)⟩)
      fun p hp => (List.mem_filter.mp hp).2
  | set _ ih =>
    rw [Elements.after_eq_insertAll]
    exact wellFormed_set_insertAll (fun x hx => ih x (List.mem_of_mem_filter hx))
      fun x hx => (List.mem_filter.mp hx).2
  | record _ ih =>
    rw [Attributes.after_eq_putAll]
    exact wellFormed_record_putAll (fun a ha => ih a (List.mem_of_mem_filter ha))
      fun a ha => (List.mem_filter.mp ha).2
  | _ => constructor

/-- A well-formed container is what its own members leave when they are inserted in order. -/
theorem WellFormed.built {v : Value} (h : v.WellFormed) : v.Built := by
  induction h with
  | list _ ih => exact .list ih
  | tuple _ ih => exact .tuple ih
  | @dict entries _ _ hhash hdiffer ihkeys ihvalues =>
    have hafter : Dict.after entries = entries := by
      rw [Dict.after_eq_putAll, List.filter_eq_self.mpr hhash]
      exact Assoc.putAll_of_keysDiffer hdiffer
    rw [← hafter]
    exact .dict ihkeys ihvalues
  | @set items _ hhash hdiffer ih =>
    have hafter : Elements.after items = items := by
      rw [Elements.after_eq_insertAll, List.filter_eq_self.mpr hhash]
      exact Distinct.insertAll_of_differ hdiffer
    rw [← hafter]
    exact .set ih
  | @record typeName attrs _ hnames hdiffer ih =>
    have hafter : Attributes.after attrs = attrs := by
      rw [Attributes.after_eq_putAll, List.filter_eq_self.mpr hnames]
      exact Assoc.putAll_of_keysDiffer (Assoc.keysDiffer_iff_nodup.mpr hdiffer)
    rw [← hafter]
    exact .record ih
  | _ => constructor

/-- The well-formed values are those that are built by operations on containers alone. -/
theorem built_iff_wellFormed {v : Value} : v.Built ↔ v.WellFormed :=
  ⟨Built.wellFormed, WellFormed.built⟩

end Value

/-! ## Whole histories -/

/-- **Containers after histories.** After any history a dict, a set and a record hold what was
accepted: each key once, in its first form and place, and under it what was given last. The next
operation is refused, and changes nothing, exactly if its own key cannot be one; otherwise it
returns what was there before. -/
theorem containers_after_histories :
    (∀ inserts : List (Value × Value), (∀ e ∈ inserts, e.1.WellFormed) →
      Assoc.Keeps Value.same Value.hashable Value.WellFormed inserts (Dict.after inserts) ∧
        ∀ key value, (Dict.after inserts).insert key value =
            (if key.hashable then
              .ok (Dict.after (inserts ++ [(key, value)]), (Dict.after inserts).get? key)
            else .error (.unhashable key.kind)) ∧
          (key.hashable = false → Dict.after (inserts ++ [(key, value)]) = Dict.after inserts)) ∧
    (∀ items : List Value, (∀ x ∈ items, x.WellFormed) →
      Distinct.Keeps Value.same Value.hashable Value.WellFormed items (Elements.after items) ∧
        ∀ x, (Elements.after items).insert x =
            (if x.hashable then
              .ok (Elements.after (items ++ [x]), !(Elements.after items).contains x)
            else .error (.unhashable x.kind)) ∧
          (x.hashable = false → Elements.after (items ++ [x]) = Elements.after items)) ∧
    ∀ pairs : List (String × Value),
      Assoc.Keeps (· == ·) isIdentifier (fun _ => True) pairs (Attributes.after pairs) ∧
        ∀ name value, (Attributes.after pairs).set name value =
            (if isIdentifier name then .ok (Attributes.after (pairs ++ [(name, value)]))
            else .error (.invalidAttribute name)) ∧
          (isIdentifier name = false →
            Attributes.after (pairs ++ [(name, value)]) = Attributes.after pairs) := by
  refine ⟨fun inserts hkeys => ⟨?_, fun key value => ⟨?_, fun h => ?_⟩⟩,
    fun items hitems => ⟨?_, fun x => ⟨?_, fun h => ?_⟩⟩,
    fun pairs => ⟨?_, fun name value => ⟨?_, fun h => ?_⟩⟩⟩
  · rw [Dict.after_eq_putAll]
    exact Assoc.keeps_putAll Value.hashable Value.equivOn hkeys
  · rw [Dict.after_concat, Dict.insert]
    split <;> rfl
  · rw [Dict.after_concat, h, if_neg (by simp)]
  · rw [Elements.after_eq_insertAll]
    exact Distinct.keeps_insertAll Value.hashable Value.equivOn hitems
  · rw [Elements.after_concat, Elements.insert]
    split <;> rfl
  · rw [Elements.after_concat, h, if_neg (by simp)]
  · rw [Attributes.after_eq_putAll]
    exact Assoc.keeps_putAll isIdentifier EquivOn.beq fun _ _ => trivial
  · rw [Attributes.after_concat, Attributes.set]
    split <;> rfl
  · rw [Attributes.after_concat, h, if_neg (by simp)]

/-- Both zeros are one key, and the first one that came stays; a list is no key, and what is no
identifier names no attribute. -/
theorem containers_after_histories_zeros :
    let zero : Value := .float (.zero .double)
    let minusZero : Value := .float (.ofBits .double 0x8000000000000000)
    let inserts := [(zero, Value.int 1), (.list [], .int 2), (minusZero, .int 3)]
    let items := [zero, .list [], minusZero, .tuple [minusZero]]
    let pairs := [("x", Value.int 1), ("x y", .int 2), ("y", .int 3), ("x", .int 4)]
    (∀ e ∈ inserts, e.1.WellFormed) ∧ (Dict.after inserts).map (·.1) = [zero] ∧
      (Dict.after inserts).get? minusZero = some (.int 3) ∧
      (Dict.after inserts).insert (.list []) .null = .error (.unhashable .list) ∧
      (∀ x ∈ items, x.WellFormed) ∧ Elements.after items = [zero, .tuple [minusZero]] ∧
      (Elements.after items).contains (.tuple [zero]) = true ∧
      (Attributes.after pairs).map (·.1) = ["x", "y"] ∧
      (Attributes.after pairs).get? "x" = some (.int 4) := by
  intro zero minusZero inserts items pairs
  have hinserts : ∀ e ∈ inserts, e.1.WellFormed := by
    simp [inserts, Value.WellFormed.float, Value.WellFormed.list, zero, minusZero]
  have hitems : ∀ x ∈ items, x.WellFormed := by
    simp [items, Value.WellFormed.float, Value.WellFormed.list, Value.WellFormed.tuple, zero,
      minusZero]
  obtain ⟨hdict, hset, hrecord⟩ := containers_after_histories
  obtain ⟨hentries, hnext⟩ := hdict inserts hinserts
  obtain ⟨helements, -⟩ := hset items hitems
  obtain ⟨hattrs, -⟩ := hrecord pairs
  have htuple : (Value.tuple [zero]).WellFormed := .tuple (by simp [zero, Value.WellFormed.float])
  exact ⟨hinserts, hentries.keys.order.trans rfl, (hentries.last minusZero (.float _)).trans rfl,
    (hnext (.list []) .null).1, hitems, helements.order.trans rfl,
    (helements.present _ htuple).trans (by decide), hattrs.keys.order.trans (by decide),
    (hattrs.last "x" trivial).trans rfl⟩

end ScriptBridge
