import ScriptBridge.Proofs.Decoding.Failures
import ScriptBridge.Proofs.Encoding.Targets

/-!
# Integers from one host type to another

An integer leaves the host as one of three shapes, two of which hold 64 bits and are filled by a
cast, and each type that it can arrive at makes a check of its own. Between no two of the types does
a cast cut anything off: the number arrives as it was, or it is refused with its digits.

- `HostInteger`: an integer of a host type. `HostInteger.encodesTo_int`,
  `HostInteger.encodesTo_list`: what both encoders make of integers and of sequences of them.
- `IntegerType`: a type that an integer can be decoded into, with the integers that it holds and the
  values that they are there.
- `IntegerType.decode_eq_ok`, `IntegerType.decode_eq_error`: integers in such a type.
- `decode_list_eq_error_of_split`: a list is refused at the first item that is.
- `IntegerType.exists_decode_vector_eq_ok`, `IntegerType.represents_of_decode_vector`,
  `IntegerType.decode_vector_eq_error`: lists of integers.
- `HostInteger.decode_encode_exact`: from one type to another, alone and in sequences.
-/

namespace ScriptBridge

/-- An integer of the host, of a fixed width or of any size. -/
inductive HostInteger where
  | fixed (t : IntType) (x : Fixed t)
  | big (n : Int)

namespace HostInteger

/-- The host value of an integer. -/
def value : HostInteger → HostValue
  | fixed t x => .int t x
  | big n => .bigInt n

/-- Which integer it is. -/
def number : HostInteger → Int
  | fixed _ x => x.val
  | big n => n

end HostInteger

/-- A host type that integers can be decoded into. -/
inductive IntegerType where
  | fixed (t : IntType)
  | big
  | dynamic

namespace IntegerType

def type : IntegerType → HostType
  | fixed t => .int t
  | big => .bigInt
  | dynamic => .dynamic

/-- The integers of a type. Dynamic values have two kinds of them, of 64 bits each. -/
def InRange : IntegerType → Int → Prop
  | fixed t, n => t.InRange n
  | big, _ => True
  | dynamic, n => IntType.int64.least ≤ n ∧ n ≤ IntType.uint64.greatest

instance (d : IntegerType) (n : Int) : Decidable (d.InRange n) := by
  cases d <;> unfold InRange <;> infer_instance

/-- The range of a type in error messages. -/
def range : IntegerType → String
  | fixed t => t.name
  | big => "BigInt"
  | dynamic => "i64 or u64"

/-- The value of a type that is an integer. In a dynamic value it is a signed one if it fits. -/
inductive Represents : IntegerType → HostValue → Int → Prop
  | fixed {t : IntType} (x : Fixed t) : Represents (fixed t) (.int t x) x.val
  | big (n : Int) : Represents big (.bigInt n) n
  | signed (x : Fixed .int64) : Represents dynamic (.dynamic (.int x)) x.val
  | unsigned (x : Fixed .uint64) (h : ¬ IntType.int64.InRange x.val) :
      Represents dynamic (.dynamic (.uint x)) x.val

variable {schema : Schema} {d : IntegerType} {n : Int}

/-- A dynamic value that is no signed number of 64 bits is an unsigned one. -/
theorem Represents.eq_uint {y : HostValue} (h : dynamic.Represents y n)
    (hn : ¬ IntType.int64.InRange n) :
    ∃ x : Fixed .uint64, x.val = n ∧ y = .dynamic (.uint x) := by
  cases h with
  | signed x => exact absurd x.inRange hn
  | unsigned x _ => exact ⟨x, rfl, rfl⟩

/-- The two kinds of integers of dynamic values have no gap between them. -/
theorem inRange_dynamic_iff :
    dynamic.InRange n ↔ IntType.int64.InRange n ∨ IntType.uint64.InRange n := by
  have hsigned : IntType.int64.least = -2 ^ 63 ∧ IntType.int64.greatest = 2 ^ 63 - 1 := by decide
  have hunsigned : IntType.uint64.least = 0 ∧ IntType.uint64.greatest = 2 ^ 64 - 1 := by decide
  unfold InRange IntType.InRange
  omega

/-- What an integer becomes in a type is that integer. -/
theorem decode_eq_ok {y : HostValue} :
    decode schema (.int n) d.type = .ok y ↔ d.Represents y n := by
  cases d with
  | fixed t =>
    constructor
    · intro h
      cases decodes_int h with
      | int x => exact .fixed x
    · intro h
      cases h with
      | fixed x =>
        show decodeFixed t x.val = _
        rw [decodeFixed, Fixed.ofInt?, dif_pos x.inRange]
  | big =>
    constructor
    · intro h
      cases h
      exact .big n
    · intro h
      cases h
      rfl
  | dynamic =>
    rw [type, decode_dynamic_eq_ok]
    constructor
    · rintro ⟨v, hv, rfl⟩
      rcases Value.dynamicInt_eq_ok.mp hv with ⟨hn, rfl⟩ | ⟨hsigned, hn, rfl⟩
      · exact .signed ⟨n, hn⟩
      · exact .unsigned ⟨n, hn⟩ hsigned
    · intro h
      cases h with
      | signed x => exact ⟨_, Value.dynamicInt_eq_ok.mpr (.inl ⟨x.inRange, rfl⟩), rfl⟩
      | unsigned x h => exact ⟨_, Value.dynamicInt_eq_ok.mpr (.inr ⟨h, x.inRange, rfl⟩), rfl⟩

/-- An integer is refused if the type does not hold it, and for nothing else. -/
theorem decode_eq_error {e : ConvertError} :
    decode schema (.int n) d.type = .error e ↔
      ¬ d.InRange n ∧ e = .outOfRange (toString n) d.range := by
  cases d with
  | fixed t => exact decodeFixed_eq_error
  | big => exact iff_of_false ok_ne_error fun h => h.1 trivial
  | dynamic =>
    rw [type, decode_dynamic_eq_error, Value.dynamic, dynamicInt_eq_error, inRange_dynamic_iff,
      not_or]
    constructor
    · intro h
      cases h with
      | kind h => exact absurd (by simp [Value.kind, HostType.kinds, Kind.all]) h
      | dynamicRange hsigned hunsigned => exact ⟨⟨hsigned, hunsigned⟩, rfl⟩
    · rintro ⟨⟨hsigned, hunsigned⟩, rfl⟩
      exact .dynamicRange hsigned hunsigned

theorem exists_decode_eq_ok : (∃ y, decode schema (.int n) d.type = .ok y) ↔ d.InRange n := by
  constructor
  · rintro ⟨y, hy⟩
    by_contra hn
    rw [decode_eq_error.mpr ⟨hn, rfl⟩] at hy
    cases hy
  · intro hn
    rcases ok_or_error (decode schema (.int n) d.type) with hok | ⟨e, he⟩
    · exact hok
    · exact absurd hn (decode_eq_error.mp he).1

end IntegerType

/-! ## Encoding -/

/-- What both encoders make of a shape: the open one, and the strict one for each target that takes
a value of that kind. -/
structure HostTree.EncodesTo (t : HostTree) (v : Value) : Prop where
  openly : encodeOpen t = .ok v
  strictly : ∀ target : Target, target.accepts v.kind = true → encode t target = .ok v

/-- What the strict encoder makes anyway it makes for each target that takes it. -/
theorem HostTree.encodesTo_of_any {t : HostTree} {v : Value} (hopen : encodeOpen t = .ok v)
    (hany : encode t .any = .ok v) : t.EncodesTo v := by
  refine ⟨hopen, fun target htarget => ?_⟩
  rcases Target.accepts_iff.mp htarget with rfl | hkind
  · exact hany
  · exact encodeAt_target_of_kind hany hkind

namespace HostInteger

theorem scalar?_tree (x : HostInteger) : x.value.tree.scalar? = some (.int x.number) := by
  cases x with
  | fixed t x => exact HostTree.scalar?_ofFixed x
  | big n => rfl

theorem encodeAt_tree (x : HostInteger) {depth : Nat} (hdepth : depth ≤ maxDepth) :
    x.value.tree.encodeAt .any depth = .ok (.int x.number) :=
  (HostTree.encodeAt_of_scalar x.scalar?_tree).mpr ⟨hdepth, rfl⟩

theorem openAt_tree (x : HostInteger) {depth : Nat} (hdepth : depth ≤ maxDepth) :
    x.value.tree.openAt depth = .ok (.int x.number) :=
  (HostTree.openAt_of_scalar (HostTree.scalar?_collapse_of_int x.scalar?_tree)).mpr ⟨hdepth, rfl⟩

/-- An integer becomes a script integer, whatever its shape. -/
theorem encodesTo_int (x : HostInteger) : x.value.tree.EncodesTo (.int x.number) :=
  HostTree.encodesTo_of_any (x.openAt_tree (Nat.zero_le _)) (x.encodeAt_tree (Nat.zero_le _))

/-- A sequence of integers becomes a list of script integers. -/
theorem encodesTo_list (kind : SequenceKind) (xs : List HostInteger) :
    (HostValue.sequence kind (xs.map value)).tree.EncodesTo
      (.list (xs.map fun x => .int x.number)) := by
  have hdepth : 0 + 1 ≤ maxDepth := by decide
  rw [HostValue.tree, HostValue.itemTrees_eq_map]
  refine HostTree.encodesTo_of_any
    (HostTree.openAt_seq_eq_ok.mpr ⟨Nat.zero_le _, _, ?_, rfl⟩)
    (HostTree.encodeAt_seq_eq_ok.mpr ⟨Nat.zero_le _, _, ?_, rfl⟩)
  · simp only [List.forall₂_map_left_iff, List.forall₂_map_right_iff, List.forall₂_same]
    exact fun x _ => x.openAt_tree hdepth
  · simp only [List.forall₂_map_left_iff, List.forall₂_map_right_iff, List.forall₂_same]
    exact fun x _ => x.encodeAt_tree hdepth

end HostInteger

/-! ## Lists -/

variable {schema : Schema} {d : IntegerType}

section

variable {item : HostType} {vs : List Value}

/-- A vector is all items of a list. -/
theorem decode_vector_eq_ok {y : HostValue} :
    decode schema (.list vs) (.sequence .vector item) = .ok y ↔
      ∃ ys, List.Forall₂ (fun v y => decode schema v item = .ok y) vs ys ∧
        y = .sequence .vector ys := by
  constructor
  · intro h
    cases decodes_sequence rfl h with
    | members hvs hitems =>
      obtain rfl := Option.some.inj hvs
      exact ⟨_, hitems, rfl⟩
  · rintro ⟨ys, hitems, rfl⟩
    exact decode_list_of_items hitems trivial

/-- A list is refused at the first item that is refused, and the error has its index. -/
theorem decode_list_eq_error_of_split {kind : SequenceKind} {before after : List Value} {v : Value}
    {cause : ConvertError} (hbefore : ∀ u ∈ before, ∃ y, decode schema u item = .ok y)
    (hcause : decode schema v item = .error cause) :
    decode schema (.list (before ++ v :: after)) (.sequence kind item) =
      .error (.within (.element .list before.length) cause) := by
  rw [decode_eq_error, FailsBy.iff_split]
  refine .inl ⟨Visit.items .list item before 0, ⟨.element .list before.length, v, item⟩,
    Visit.items .list item after (before.length + 1), cause, ?_, fun b hb => ?_, hcause, rfl⟩
  · show Visit.items .list item (before ++ v :: after) 0 = _
    simp [Visit.items, List.zipIdx_append]
  · obtain ⟨⟨u, i⟩, hu, rfl⟩ := List.mem_map.mp hb
    exact hbefore u (List.fst_mem_of_mem_zipIdx hu)

end

namespace IntegerType

variable {xs : List HostInteger} {y : HostValue}

theorem exists_decode_vector_eq_ok :
    (∃ y, decode schema (.list (xs.map fun x => .int x.number)) (.sequence .vector d.type) =
        .ok y) ↔ ∀ x ∈ xs, d.InRange x.number := by
  have hitems : (∃ ys, List.Forall₂ (fun v y => decode schema v d.type = .ok y)
      (xs.map fun x => .int x.number) ys) ↔ ∀ x ∈ xs, d.InRange x.number := by
    rw [forall₂_exists_iff, List.forall_mem_map]
    simp only [exists_decode_eq_ok]
  rw [← hitems]
  constructor
  · rintro ⟨y, hy⟩
    obtain ⟨ys, hys, -⟩ := decode_vector_eq_ok.mp hy
    exact ⟨ys, hys⟩
  · rintro ⟨ys, hys⟩
    exact ⟨_, decode_vector_eq_ok.mpr ⟨ys, hys, rfl⟩⟩

/-- A vector of integers has the numbers of the list. -/
theorem represents_of_decode_vector
    (h : decode schema (.list (xs.map fun x => .int x.number)) (.sequence .vector d.type) =
      .ok y) :
    ∃ ys, y = .sequence .vector ys ∧ List.Forall₂ (fun x y => d.Represents y x.number) xs ys := by
  obtain ⟨ys, hys, rfl⟩ := decode_vector_eq_ok.mp h
  refine ⟨ys, rfl, ?_⟩
  simpa only [List.forall₂_map_left_iff, decode_eq_ok] using hys

/-- A list of integers is refused for the first that is out of range. -/
theorem decode_vector_eq_error {before after : List HostInteger} {x : HostInteger}
    (hbefore : ∀ b ∈ before, d.InRange b.number) (hx : ¬ d.InRange x.number) :
    decode schema (.list ((before ++ x :: after).map fun x => .int x.number))
        (.sequence .vector d.type) =
      .error (.within (.element .list before.length)
        (.outOfRange (toString x.number) d.range)) := by
  have hcause : decode schema (.int x.number) d.type =
      .error (.outOfRange (toString x.number) d.range) := decode_eq_error.mpr ⟨hx, rfl⟩
  have hok : ∀ u ∈ before.map fun x => Value.int x.number, ∃ y, decode schema u d.type = .ok y :=
    List.forall_mem_map.mpr fun b hb => exists_decode_eq_ok.mpr (hbefore b hb)
  rw [List.map_append, List.map_cons, decode_list_eq_error_of_split hok hcause, List.length_map]

end IntegerType

/-- **Integers keep their number.** An integer of any host type is encoded, openly or strictly, to a
value that every type whose range it is in takes for the same integer, and every other type refuses
with its digits. A sequence of integers becomes a vector of the type item by item, and is refused at
the first integer that is out of range. -/
theorem HostInteger.decode_encode_exact (schema : Schema) (d : IntegerType) :
    (∀ x : HostInteger, ∃ v, x.value.tree.EncodesTo v ∧
      ((∃ y, decode schema v d.type = .ok y) ↔ d.InRange x.number) ∧
      (∀ y, decode schema v d.type = .ok y → d.Represents y x.number) ∧
      (¬ d.InRange x.number →
        decode schema v d.type = .error (.outOfRange (toString x.number) d.range))) ∧
    ∀ (kind : SequenceKind) (xs : List HostInteger), ∃ v,
      (HostValue.sequence kind (xs.map value)).tree.EncodesTo v ∧
      ((∃ y, decode schema v (.sequence .vector d.type) = .ok y) ↔
        ∀ x ∈ xs, d.InRange x.number) ∧
      (∀ y, decode schema v (.sequence .vector d.type) = .ok y → ∃ ys,
        y = .sequence .vector ys ∧ List.Forall₂ (fun x y => d.Represents y x.number) xs ys) ∧
      ∀ before x after, xs = before ++ x :: after → (∀ b ∈ before, d.InRange b.number) →
        ¬ d.InRange x.number →
          decode schema v (.sequence .vector d.type) =
            .error (.within (.element .list before.length)
              (.outOfRange (toString x.number) d.range)) := by
  constructor
  · intro x
    refine ⟨.int x.number, x.encodesTo_int, IntegerType.exists_decode_eq_ok,
      fun y => IntegerType.decode_eq_ok.mp, fun hx => ?_⟩
    exact IntegerType.decode_eq_error.mpr ⟨hx, rfl⟩
  · intro kind xs
    refine ⟨_, encodesTo_list kind xs, IntegerType.exists_decode_vector_eq_ok,
      fun y => IntegerType.represents_of_decode_vector, ?_⟩
    rintro before x after rfl hbefore hx
    exact IntegerType.decode_vector_eq_error hbefore hx

/-- The greatest unsigned number of 64 bits is too large for the signed kind of dynamic values. A
vector of bytes is refused for it, behind a number that would have been a byte. -/
theorem HostInteger.decode_encode_exact_greatest :
    let x := HostInteger.fixed .uint64 ⟨18446744073709551615, by decide⟩
    (∃ v, encodeOpen x.value.tree = .ok v ∧
      decode .empty v .dynamic = .ok (.dynamic (.uint ⟨18446744073709551615, by decide⟩))) ∧
    ∃ v, encodeOpen (HostValue.sequence .vector (([.big 255, x] : List HostInteger).map value)).tree
        = .ok v ∧
      decode .empty v (.sequence .vector (.int .byte)) =
        .error (.within (.element .list 1) (.outOfRange "18446744073709551615" "u8")) := by
  intro x
  constructor
  · obtain ⟨v, hv, hok, hrepresents, -⟩ := (decode_encode_exact .empty .dynamic).1 x
    refine ⟨v, hv.openly, ?_⟩
    obtain ⟨y, hy⟩ := hok.mpr (by decide)
    obtain ⟨z, hz, rfl⟩ := (hrepresents y hy).eq_uint (by decide)
    obtain rfl : z = ⟨18446744073709551615, by decide⟩ := Fixed.val_inj.mp hz
    exact hy
  · obtain ⟨v, hv, -, -, herror⟩ :=
      (decode_encode_exact .empty (.fixed .byte)).2 .vector [.big 255, x]
    refine ⟨v, hv.openly, ?_⟩
    exact herror [.big 255] x [] rfl (List.forall_mem_singleton.mpr (by decide)) (by decide)

end ScriptBridge
