import ScriptBridge.Json
import ScriptBridge.Proofs.Encoding.Scalar
import ScriptBridge.Proofs.Host.Tree
import ScriptBridge.Proofs.Parts
import ScriptBridge.Proofs.Text.ByteOrder

/-!
# What the encoders make of documents

A document holds nothing that an encoder refuses, so that only depth can be wrong with it. The
strict encoder takes it as it stands. The open one does the same after it has put the members of
every object in the order of their names, and reads floats as the integers that they are.

- `Json.NamesDiffer`: an object has each name once, here and further inside.
- `Json.value`: the script value of a document, whatever floating numbers become.
- `Json.sorted`: the document with its members in the order of their names.
- `Json.encodeAt_tree`, `Json.openAt_tree`: what the encoders make of a document.
-/

namespace ScriptBridge

namespace Json

variable {j : Json} {members : List (String × Json)}

/-! ## Names -/

/-- Every object in the document has each name once. -/
def NamesDiffer (j : Json) : Prop :=
  ∀ n members, Part Json.members n (obj members) j → (members.map (·.1)).Nodup

theorem NamesDiffer.of_mem {member : Json} (h : j.NamesDiffer) (hmember : member ∈ j.members) :
    member.NamesDiffer :=
  fun n members hpart => h (n + 1) members (.deeper hmember hpart)

theorem NamesDiffer.nodup (h : (obj members).NamesDiffer) : (members.map (·.1)).Nodup :=
  h 0 members (.self _)

theorem value_mem_members {m : String × Json} (hm : m ∈ members) : m.2 ∈ (obj members).members :=
  List.mem_map.mpr ⟨m, hm, rfl⟩

/-! ## Script values -/

section

variable (number : JsonFloat → Value)

mutual

/-- The script value of a document. -/
def value : Json → Value
  | null => .null
  | bool b => .bool b
  | int n => .int n.val
  | float x => number x
  | str s => .text s
  | arr items => .list (itemValues items)
  | obj members => .dict (memberValues members)

/-- The script values of items. -/
def itemValues : List Json → List Value
  | [] => []
  | j :: rest => value j :: itemValues rest

/-- The entries for members, whose names are text keys. -/
def memberValues : List (String × Json) → List (Value × Value)
  | [] => []
  | (name, j) :: rest => (.text name, value j) :: memberValues rest

end

theorem itemValues_eq_map (items : List Json) :
    itemValues number items = items.map (value number) :=
  eq_map_of_cons (itemValues number) rfl fun _ _ => rfl

theorem memberValues_eq_map (members : List (String × Json)) :
    memberValues number members = members.map fun m => (.text m.1, m.2.value number) :=
  eq_map_of_cons (memberValues number) rfl fun _ _ => rfl

theorem memberValues_hashable : ∀ e ∈ memberValues number members, e.1.hashable = true := by
  rw [memberValues_eq_map]
  exact List.forall_mem_map.mpr fun _ _ => rfl

/-- Text keys are different keys when they are different texts. -/
theorem memberValues_differ (h : (members.map (·.1)).Nodup) :
    Assoc.KeysDiffer Value.same (memberValues number members) := by
  rw [memberValues_eq_map]
  refine List.pairwise_map.mpr ((List.pairwise_map.mp h).imp fun {a b} hne => ?_)
  simpa [Value.same] using Ne.symm hne

end

/-! ## The order of members -/

/-- Whether a member may stand before another: the bytes of their names are compared. -/
def nameLe (a b : String × Json) : Bool := decide (utf8Bytes a.1 ≤ utf8Bytes b.1)

mutual

/-- The document with the members of every object in the order of their names. -/
def sorted : Json → Json
  | null => null
  | bool b => bool b
  | int n => int n
  | float x => float x
  | str s => str s
  | arr items => arr (sortedItems items)
  | obj members => obj ((sortedMembers members).mergeSort nameLe)

/-- Items in their own order, each of them sorted. -/
def sortedItems : List Json → List Json
  | [] => []
  | j :: rest => sorted j :: sortedItems rest

/-- Members in their own order, each of them sorted. -/
def sortedMembers : List (String × Json) → List (String × Json)
  | [] => []
  | (name, j) :: rest => (name, sorted j) :: sortedMembers rest

end

theorem sortedItems_eq_map (items : List Json) : sortedItems items = items.map sorted :=
  eq_map_of_cons sortedItems rfl fun _ _ => rfl

theorem sortedMembers_eq_map (members : List (String × Json)) :
    sortedMembers members = members.map fun m => (m.1, m.2.sorted) :=
  eq_map_of_cons sortedMembers rfl fun _ _ => rfl

/-- Sorting renames no member, and leaves none out. -/
theorem sorted_nodup (h : (members.map (·.1)).Nodup) :
    (((sortedMembers members).mergeSort nameLe).map (·.1)).Nodup := by
  have hperm := (List.mergeSort_perm (sortedMembers members) nameLe).map (·.1)
  rw [hperm.nodup_iff, sortedMembers_eq_map, List.map_map]
  exact h

/-- Two entries with text keys stand as their members do: no other key has the same text, so that
printed forms are never looked at. -/
theorem entryLe_text (a b : String × Json) (v w : Value) :
    Value.entryLe (.text a.1, v) (.text b.1, w) = nameLe a b := by
  rw [Bool.eq_iff_iff, Value.entryLe_iff, nameLe, decide_eq_true_iff, utf8Bytes_le_iff,
    Std.le_iff_lt_or_eq (a := a.1)]
  refine or_congr_right ⟨And.left, fun hname => ⟨hname, ?_⟩⟩
  simp only [hname, Std.le_refl]

/-- Members may be sorted before they are encoded or after it. -/
theorem mergeSort_memberValues (number : JsonFloat → Value) (members : List (String × Json)) :
    (memberValues number members).mergeSort Value.entryLe =
      memberValues number (members.mergeSort nameLe) := by
  rw [memberValues_eq_map, memberValues_eq_map]
  exact (List.map_mergeSort fun a _ b _ => (entryLe_text a b _ _).symm).symm

/-! ## The encoders -/

open HostTree

variable {depth room : Nat}

@[simp] theorem scalar?_ofJsonInteger (n : JsonInteger) :
    (ofJsonInteger n).scalar? = some (.int n.val) := by
  unfold ofJsonInteger
  split <;> rfl

/-- The strict encoder takes a document as it stands. -/
theorem encodeAt_tree (hnames : j.NamesDiffer) (hj : NestedWithin Json.members room j)
    (hroom : depth + room ≤ maxDepth) :
    j.tree.encodeAt .any depth = .ok (j.value fun x => .float x.val) := by
  have hdepth : depth ≤ maxDepth := Nat.le_trans (Nat.le_add_right _ _) hroom
  induction j generalizing depth room with
  | arr items ih =>
    rw [tree, itemTrees_eq_map, value, itemValues_eq_map]
    refine encodeAt_seq_eq_ok.mpr ⟨hdepth, _, ?_, rfl⟩
    simp only [List.forall₂_map_left_iff, List.forall₂_map_right_iff, List.forall₂_same]
    intro j hmember
    obtain ⟨below, rfl, hbelow⟩ := hj.of_mem hmember
    exact ih j hmember (hnames.of_mem hmember) hbelow (by omega) (by omega)
  | obj members ih =>
    rw [tree, memberTrees_eq_map, value,
      ← Assoc.putAll_of_keysDiffer (memberValues_differ _ hnames.nodup)]
    refine encodeAt_map_eq_ok.mpr ⟨hdepth, _, ?_, memberValues_hashable _, rfl⟩
    simp only [memberValues_eq_map, List.forall₂_map_left_iff, List.forall₂_map_right_iff,
      List.forall₂_same]
    intro m hm
    have hmember := value_mem_members hm
    obtain ⟨below, rfl, hbelow⟩ := hj.of_mem hmember
    exact ⟨(encodeAt_of_scalar rfl).mpr ⟨by omega, rfl⟩,
      ih m hm (hnames.of_mem hmember) hbelow (by omega) (by omega)⟩
  | int n => exact (encodeAt_of_scalar (scalar?_ofJsonInteger n)).mpr ⟨hdepth, rfl⟩
  | _ => exact (encodeAt_of_scalar rfl).mpr ⟨hdepth, rfl⟩

/-- The open encoder sorts a document first. -/
theorem openAt_tree (hnames : j.NamesDiffer) (hj : NestedWithin Json.members room j)
    (hroom : depth + room ≤ maxDepth) :
    j.tree.openAt depth = .ok (j.sorted.value fun x => openNumber x.val) := by
  have hdepth : depth ≤ maxDepth := Nat.le_trans (Nat.le_add_right _ _) hroom
  induction j generalizing depth room with
  | arr items ih =>
    rw [tree, itemTrees_eq_map, sorted, value, itemValues_eq_map, sortedItems_eq_map]
    refine openAt_seq_eq_ok.mpr ⟨hdepth, _, ?_, rfl⟩
    simp only [List.forall₂_map_left_iff, List.forall₂_map_right_iff, List.forall₂_same]
    intro j hmember
    obtain ⟨below, rfl, hbelow⟩ := hj.of_mem hmember
    exact ih j hmember (hnames.of_mem hmember) hbelow (by omega) (by omega)
  | obj members ih =>
    rw [tree, memberTrees_eq_map, sorted, value,
      ← Assoc.putAll_of_keysDiffer (memberValues_differ _ (sorted_nodup hnames.nodup)),
      ← mergeSort_memberValues]
    refine openAt_map_eq_ok.mpr ⟨hdepth, _, ?_, _,
      Dict.ofUnsorted_eq_ok.mpr ⟨memberValues_hashable _, rfl⟩, rfl⟩
    simp only [sortedMembers_eq_map, memberValues_eq_map, List.map_map,
      List.forall₂_map_left_iff, List.forall₂_map_right_iff, List.forall₂_same]
    intro m hm
    have hmember := value_mem_members hm
    obtain ⟨below, rfl, hbelow⟩ := hj.of_mem hmember
    exact ⟨guardDepth_eq_ok.mpr ⟨by omega, rfl⟩,
      ih m hm (hnames.of_mem hmember) hbelow (by omega) (by omega)⟩
  | int n =>
    rw [tree, ofJsonInteger]
    split <;> exact guardDepth_eq_ok.mpr ⟨hdepth, rfl⟩
  | _ => exact guardDepth_eq_ok.mpr ⟨hdepth, rfl⟩

end Json

end ScriptBridge
