import ScriptBridge.Proofs.Encoding.Scalar
import ScriptBridge.Proofs.Host.Tree
import ScriptBridge.Proofs.Storing
import ScriptBridge.Proofs.Value.Equality

/-!
# What becomes of the entries of a dynamic map

Dynamic values keep signed integers, unsigned integers and floats apart. Scripts have one kind of
integer, and the open encoder makes integers of floats too, so that keys which differ may become one
key. The dict then holds what was stored last. Nothing else can merge keys.

- `Dynamic.integer?`, `Dynamic.openInteger?`: the integer that a value becomes.
- `Dynamic.IntegersDiffer`: no two keys become the same integer.
- `Dynamic.same_iff_integer`, `Dynamic.same_iff_openInteger`: what keys that differ become is the
  same exactly when it is one integer.
- `Dynamic.encode_map_length`: a dict has as many entries as the map exactly when integers differ.
- `Dynamic.encode_map_loses_entry`: a map that loses an entry.
-/

namespace ScriptBridge

namespace Dynamic

/-- The integer that a value becomes in the strict encoder. -/
def integer? : Dynamic → Option Int
  | int n => some n.val
  | uint n => some n.val
  | _ => none

/-- The integer that a value becomes in the open encoder. -/
def openInteger? : Dynamic → Option Int
  | int n => some n.val
  | uint n => some n.val
  | float x => x.integral?
  | _ => none

/-- No two keys become the same integer. -/
def IntegersDiffer (integer? : Dynamic → Option Int) (entries : List (Dynamic × Dynamic)) : Prop :=
  entries.Pairwise fun a b => ∀ n, ¬ (integer? a.1 = some n ∧ integer? b.1 = some n)

variable {d e : Dynamic} {v w : Value}

theorem integer?_eq_some {n : Int} (hv : d.tree.scalar? = some v) :
    d.integer? = some n ↔ v = .int n := by
  cases d <;> cases hv <;> simp [integer?]

theorem openInteger?_eq_some {n : Int} (hv : d.tree.collapse.scalar? = some v) :
    d.openInteger? = some n ↔ v = .int n := by
  cases d with
  | float x =>
    rw [tree, HostTree.collapse] at hv
    rw [openInteger?]
    cases hx : x.integral? with
    | none =>
      rw [hx] at hv
      cases hv
      simp
    | some m =>
      rw [hx] at hv
      cases hv
      simp
  | _ => cases hv <;> simp [openInteger?]

/-- Collapsing floats changes nothing but what becomes an integer. -/
theorem scalar?_of_collapse (hv : d.tree.collapse.scalar? = some v) (hint : ∀ n, v ≠ .int n) :
    d.tree.scalar? = some v := by
  cases d with
  | float x =>
    rw [tree, HostTree.collapse] at hv
    cases hx : x.integral? with
    | none => rwa [hx] at hv
    | some n =>
      rw [hx] at hv
      exact absurd (Option.some.inj hv).symm (hint n)
  | _ => exact hv

/-- What keys that differ become in the strict encoder is the same only if it is one integer. -/
theorem same_iff_integer (hne : same d e = false) (hv : d.tree.scalar? = some v)
    (hw : e.tree.scalar? = some w) :
    v.same w = true ↔ ∃ n, d.integer? = some n ∧ e.integer? = some n := by
  cases d <;> cases hv <;> cases e <;> cases hw <;> simp_all [same, Value.same, integer?]
  all_goals omega

/-- What keys that differ become in the open encoder is the same only if it is one integer. -/
theorem same_iff_openInteger (hne : same d e = false) (hv : d.tree.collapse.scalar? = some v)
    (hw : e.tree.collapse.scalar? = some w) :
    v.same w = true ↔ ∃ n, d.openInteger? = some n ∧ e.openInteger? = some n := by
  simp only [openInteger?_eq_some hv, openInteger?_eq_some hw]
  constructor
  · intro hsame
    by_cases hint : ∃ n, v = .int n
    · obtain ⟨n, rfl⟩ := hint
      exact ⟨n, rfl, by cases w <;> simp_all [Value.same]⟩
    · -- what is no integer has not been collapsed, and is the same as no integer
      have hvint : ∀ n, v ≠ .int n := fun n hn => hint ⟨n, hn⟩
      have hwint : ∀ n, w ≠ .int n := by
        rintro n rfl
        cases v <;> simp_all [Value.same]
      have hv' := scalar?_of_collapse hv hvint
      obtain ⟨n, hn, -⟩ := (same_iff_integer hne hv' (scalar?_of_collapse hw hwint)).mp hsame
      exact absurd ((integer?_eq_some hv').mp hn) (hvint n)
  · rintro ⟨n, rfl, rfl⟩
    simp [Value.same]

/-! ## Whole maps -/

variable {entries : List (Dynamic × Dynamic)} {pairs : List (Value × Value)}

/-- The keys of what is stored differ when the keys of the map do and no two of them become the same
integer. -/
theorem keysDiffer_iff {view : Dynamic → HostTree} {integer? : Dynamic → Option Int}
    (hview : ∀ {d e v w}, same d e = false → (view d).scalar? = some v →
      (view e).scalar? = some w →
        (v.same w = true ↔ ∃ n, integer? d = some n ∧ integer? e = some n))
    (hdiffer : Assoc.KeysDiffer same entries)
    (h : List.Forall₂ (fun e p => (view e.1).scalar? = some p.1) entries pairs) :
    Assoc.KeysDiffer Value.same pairs ↔ IntegersDiffer integer? entries := by
  constructor
  · intro hpairs
    have hintegers : entries.Pairwise fun a b => same b.1 a.1 = false →
        ∀ n, ¬ (integer? a.1 = some n ∧ integer? b.1 = some n) := by
      refine forall₂_pairwise h.flip hpairs fun p _ a _ q _ b _ hp hq hne hdiffer n hn => ?_
      rw [(hview hdiffer hq hp).mpr ⟨n, hn.2, hn.1⟩] at hne
      cases hne
    exact hintegers.imp₂ (fun _ _ himp hne => himp hne) hdiffer
  · intro hintegers
    have hboth := hdiffer.imp₂ (fun _ _ => And.intro) hintegers
    refine forall₂_pairwise h hboth fun a _ p _ b _ q _ hp hq hab => ?_
    rw [← Bool.not_eq_true, hview hab.1 hq hp]
    exact fun ⟨n, hn⟩ => hab.2 n ⟨hn.2, hn.1⟩

/-- What a key becomes in the open encoder is well formed. -/
theorem wellFormed_of_scalar (hv : d.tree.collapse.scalar? = some v) : v.WellFormed := by
  by_cases hint : ∃ n, v = .int n
  · obtain ⟨n, rfl⟩ := hint
    exact .int n
  · have hv' := scalar?_of_collapse hv fun n hn => hint ⟨n, hn⟩
    cases d <;> cases hv' <;> constructor

/-- **Entries of a map are lost when integers meet, and only then.** A dict that is made of a map
whose keys differ has as many entries as the map exactly when no two keys become the same integer.
For the open encoder floats are integers too. -/
theorem encode_map_length (entries : List (Dynamic × Dynamic))
    (hdiffer : Assoc.KeysDiffer same entries) :
    (∀ w, encode (map entries).tree .any = .ok w → ∃ stored, w = .dict stored ∧
        (stored.length = entries.length ↔ IntegersDiffer integer? entries)) ∧
      ∀ w, encodeOpen (map entries).tree = .ok w → ∃ stored, w = .dict stored ∧
        (stored.length = entries.length ↔ IntegersDiffer openInteger? entries) := by
  rw [tree, entryTrees_eq_map]
  constructor
  · intro w hw
    obtain ⟨-, pairs, hpairs, hhash, rfl⟩ := HostTree.encodeAt_map_eq_ok.mp hw
    rw [List.forall₂_map_left_iff] at hpairs
    have hkeys : List.Forall₂ (fun e p => e.1.tree.scalar? = some p.1) entries pairs :=
      forall₂_imp_of_mem hpairs fun e _ p hp hencodes =>
        HostTree.scalar?_of_hashable e.1.tree_ne_struct hencodes.1 (hhash p hp)
    refine ⟨_, rfl, ?_⟩
    rw [hkeys.length_eq, Assoc.length_putAll_iff, keysDiffer_iff same_iff_integer hdiffer hkeys]
  · intro w hw
    obtain ⟨-, pairs, hpairs, stored, hstored, rfl⟩ := HostTree.openAt_map_eq_ok.mp hw
    obtain ⟨hhash, rfl⟩ := Dict.ofUnsorted_eq_ok.mp hstored
    rw [List.forall₂_map_left_iff] at hpairs
    have hkeys : List.Forall₂ (fun e p => e.1.tree.collapse.scalar? = some p.1) entries pairs :=
      forall₂_imp_of_mem hpairs fun e _ p hp hopens =>
        HostTree.scalar?_of_hashable_open hopens.1 (hhash p hp)
    have hwf : ∀ p ∈ pairs, p.1.WellFormed := by
      intro p hp
      obtain ⟨_, -, hkey⟩ := forall₂_exists_left hkeys p hp
      exact wellFormed_of_scalar hkey
    have hperm := List.mergeSort_perm pairs Value.entryLe
    refine ⟨_, rfl, ?_⟩
    rw [hkeys.length_eq, ← hperm.length_eq, Assoc.length_putAll_iff,
      ← Value.keysDiffer_perm hperm.symm hwf, keysDiffer_iff same_iff_openInteger hdiffer hkeys]

/-- A float and an unsigned integer stay two keys in the strict encoder. In the open encoder they
would be the integer two, both of them. -/
theorem encode_map_length_two :
    let two : Binary64 := .ofBits .double 0x4000000000000000
    let entries := [(float two, null), (uint ⟨2, by decide⟩, bool true)]
    Assoc.KeysDiffer same entries ∧
      encode (map entries).tree .any =
        .ok (.dict [(.float two, .null), (.int 2, .bool true)]) ∧
      IntegersDiffer integer? entries ∧
      ∃ stored, encodeOpen (map entries).tree = .ok (.dict stored) ∧
        (stored.length = 2 ↔ IntegersDiffer openInteger? entries) := by
  intro two entries
  have hdiffer : Assoc.KeysDiffer same entries := by simp [entries, Assoc.KeysDiffer, same]
  obtain ⟨hstrict, hopen⟩ := encode_map_length entries hdiffer
  have hencode : encode (map entries).tree .any =
      .ok (.dict [(.float two, .null), (.int 2, .bool true)]) := rfl
  obtain ⟨stored, hstored, hlength⟩ := hstrict _ hencode
  have htwo : stored.length = entries.length := by rw [← Value.dict.inj hstored]; rfl
  have hinteger : HostTree.openAt (.float (.ofBits .double 0x4000000000000000)) 1 =
      .ok (.int 2) := rfl
  obtain ⟨w, hw⟩ : ∃ w, encodeOpen (map entries).tree = .ok w :=
    ⟨_, HostTree.openAt_map_eq_ok.mpr ⟨by decide, [(.int 2, .null), (.int 2, .bool true)],
      .cons ⟨hinteger, rfl⟩ (.cons ⟨rfl, rfl⟩ .nil), _,
      Dict.ofUnsorted_eq_ok.mpr ⟨by simp [Value.hashable], rfl⟩, rfl⟩⟩
  obtain ⟨stored', rfl, hlength'⟩ := hopen w hw
  exact ⟨hdiffer, hencode, hlength.mp htwo, stored', hw, hlength'⟩

/-- One as a signed and as an unsigned integer: two keys of the map, and one of the dict. -/
theorem encode_map_loses_entry :
    let entries := [(int ⟨1, by decide⟩, str "a"), (uint ⟨1, by decide⟩, str "b")]
    let stored := [(Value.int 1, Value.text "b")]
    Assoc.KeysDiffer same entries ∧ encode (map entries).tree .any = .ok (.dict stored) ∧
      encodeOpen (map entries).tree = .ok (.dict stored) ∧ stored.length < entries.length := by
  intro entries stored
  have hdiffer : Assoc.KeysDiffer same entries := by simp [entries, Assoc.KeysDiffer, same]
  have hsorted : [(Value.int 1, Value.text "a"), (.int 1, .text "b")].mergeSort Value.entryLe =
      [(.int 1, .text "a"), (.int 1, .text "b")] :=
    List.mergeSort_of_pairwise (by simp [Value.entryLe_iff])
  have hopen : encodeOpen (map entries).tree = .ok (.dict stored) :=
    HostTree.openAt_map_eq_ok.mpr ⟨by decide, [(.int 1, .text "a"), (.int 1, .text "b")],
      .cons ⟨rfl, rfl⟩ (.cons ⟨rfl, rfl⟩ .nil), _,
      Dict.ofUnsorted_eq_ok.mpr ⟨by simp [Value.hashable], rfl⟩, by rw [hsorted]; rfl⟩
  exact ⟨hdiffer, rfl, hopen, by decide⟩

end Dynamic

end ScriptBridge
