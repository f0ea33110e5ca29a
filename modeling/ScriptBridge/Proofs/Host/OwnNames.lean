import ScriptBridge.Proofs.Assoc
import ScriptBridge.Proofs.Encoding.Strict
import ScriptBridge.Proofs.Host.Naming

/-!
# Entries that are found under their own names

Whether all entries of a table are found is a matter of any two of them. Whether one entry is found
depends on where the others stand. A name that is given is looked for first, so that only earlier
names of that kind are in its way. An identifier is looked for last: a given name is in its way
wherever it stands, and so is every earlier identifier, be its own entry given a name or not.

- `FieldSpec.FindsItself`: nothing is in the way of an entry.
- `resolveAttr_attrName_eq_some_iff`: such entries are found under their attribute names, and no
  others.
- `attrName_nodup_of_findsItself`: where all are found, attribute names differ.
- `HostTree.encodeAt_struct_of_nodup`: fields of different names leave one attribute each.
- `resolveAttr_attrName_exact`: all of this of a whole table.
-/

namespace ScriptBridge

/-- The entry at an index of a table is in nobody's shadow. -/
inductive FieldSpec.FindsItself (table : List FieldSpec) (j : Nat) (spec : FieldSpec) : Prop
  /-- It is given a name that no earlier entry is given, whatever the case of letters. -/
  | byName {name : String} (hname : spec.name = some name)
      (hearlier : ∀ other ∈ table.take j, other.isGiven name = false)
  /-- It is given none; its identifier is given to no entry as a name, whatever the case of letters,
  and no earlier entry has an identifier with the same capitalised form. -/
  | byIdent (hname : spec.name = none) (hgiven : ∀ other ∈ table, other.isGiven spec.ident = false)
      (hearlier : ∀ other ∈ table.take j, capitalize other.ident ≠ capitalize spec.ident)

/-- The member at an index is the first to pass a test when it passes and none before it does. -/
theorem findIdx?_eq_some_iff_take {α : Type} {p : α → Bool} {l : List α} {j : Nat} {a : α}
    (ha : l[j]? = some a) :
    l.findIdx? p = some j ↔ p a = true ∧ ∀ b ∈ l.take j, p b = false := by
  obtain ⟨hj, rfl⟩ := List.getElem?_eq_some_iff.mp ha
  rw [List.findIdx?_eq_some_iff_getElem]
  constructor
  · rintro ⟨_, hp, hfirst⟩
    refine ⟨hp, fun b hb => ?_⟩
    obtain ⟨i, hi, rfl⟩ := List.mem_take_iff_getElem.mp hb
    simpa using hfirst i (by omega)
  · rintro ⟨hp, hfirst⟩
    refine ⟨hj, hp, fun i hij => ?_⟩
    have hmem : l[i] ∈ l.take j := List.mem_take_iff_getElem.mpr ⟨i, by omega, rfl⟩
    simpa using hfirst _ hmem

/-- Pairing a list with another one leaves some of it, from the front. -/
theorem map_fst_zip_sublist {α β : Type} (as : List α) (bs : List β) :
    ((as.zip bs).map (·.1)).Sublist as := by
  induction as generalizing bs with
  | nil => exact .slnil
  | cons a as ih =>
    cases bs with
    | nil => exact List.nil_sublist _
    | cons b bs => exact (ih bs).cons_cons a

variable {table : List FieldSpec} {j : Nat} {spec : FieldSpec}

/-- An entry is found under its attribute name when nothing is in its way. -/
theorem resolveAttr_attrName_eq_some_iff (hspec : table[j]? = some spec) :
    resolveAttr table spec.attrName = some j ↔ spec.FindsItself table j := by
  rw [resolveAttr_eq_some, findIdx?_eq_some_iff_take hspec, findIdx?_eq_some_iff_take hspec]
  cases hname : spec.name with
  | some name =>
    have hattr : spec.attrName = name := by simp [FieldSpec.attrName, hname]
    have hself : spec.isGiven name = true := hattr ▸ FieldSpec.isGiven_attrName (by simp [hname])
    rw [hattr]
    constructor
    · rintro (⟨-, hearlier⟩ | ⟨hnone, -⟩)
      · exact .byName hname hearlier
      · -- the entry itself is given its name
        rw [hnone spec (List.mem_of_getElem? hspec)] at hself
        cases hself
    · intro h
      cases h with
      | byName hname' hearlier =>
        obtain rfl : name = _ := Option.some.inj (hname.symm.trans hname')
        exact .inl ⟨hself, hearlier⟩
      | byIdent hname' => cases hname.symm.trans hname'
  | none =>
    have hattr : spec.attrName = spec.ident := by simp [FieldSpec.attrName, hname]
    rw [hattr]
    constructor
    · rintro (⟨hself, -⟩ | ⟨hgiven, -, hearlier⟩)
      · rw [FieldSpec.isGiven_of_none hname] at hself
        cases hself
      · exact .byIdent hname hgiven fun other hother => by simpa using hearlier other hother
    · intro h
      cases h with
      | byName hname' => cases hname.symm.trans hname'
      | byIdent _ hgiven hearlier =>
        exact .inr ⟨hgiven, by simp, fun other hother => by simpa using hearlier other hother⟩

/-- Where every entry is found under its attribute name, no two have the same. -/
theorem attrName_nodup_of_findsItself
    (h : ∀ (j : Nat) (spec : FieldSpec), table[j]? = some spec → spec.FindsItself table j) :
    (table.map FieldSpec.attrName).Nodup := by
  rw [List.nodup_iff_pairwise_ne, List.pairwise_map]
  refine List.pairwise_iff_getElem.mpr fun i j hi hj hij heq => ?_
  have hi' := List.getElem?_eq_getElem hi
  have hj' := List.getElem?_eq_getElem hj
  -- one attribute name would resolve to both indices
  have hresolves := (resolveAttr_attrName_eq_some_iff hj').mpr (h j _ hj')
  rw [← heq, (resolveAttr_attrName_eq_some_iff hi').mpr (h i _ hi')] at hresolves
  exact Nat.ne_of_lt hij (Option.some.inj hresolves)

namespace HostTree

/-- Fields of different names leave one attribute each, in their order. -/
theorem encodeAt_struct_of_nodup {typeName : String} {fields : List (String × HostTree)}
    {target : Target} {depth : Nat} {w : Value} (hnames : (fields.map (·.1)).Nodup)
    (h : encodeAt (struct typeName fields) target depth = .ok w) :
    ∃ attrs, w = .record typeName attrs ∧
      List.Forall₂ (EncodesField (depth + 1)) fields attrs := by
  obtain ⟨-, h⟩ := encodeAt_struct_target_eq_ok.mp h
  obtain ⟨-, attrs, hattrs, -, rfl⟩ := encodeAt_struct_eq_ok.mp h
  have hsame : fields.map (·.1) = attrs.map (·.1) :=
    map_eq_map_of_forall₂ (hattrs.imp fun _ _ hencodes => hencodes.1.symm)
  have hdiffer : Assoc.KeysDiffer (· == ·) attrs := Assoc.keysDiffer_iff_nodup.mpr (hsame ▸ hnames)
  exact ⟨attrs, by rw [Assoc.putAll_of_keysDiffer hdiffer], hattrs⟩

end HostTree

/-- **When an attribute finds its way home.** The attribute name of an entry resolves to the entry
exactly when nothing is in its way. Where that is so for all entries of a table, their attribute
names differ, and encoding a struct with this table, whatever its fields hold, gives a record with
one attribute for each field, none of them written over another. -/
theorem resolveAttr_attrName_exact (table : List FieldSpec) :
    (∀ (j : Nat) (spec : FieldSpec), table[j]? = some spec →
      (resolveAttr table spec.attrName = some j ↔ spec.FindsItself table j)) ∧
    ((∀ (j : Nat) (spec : FieldSpec), table[j]? = some spec → spec.FindsItself table j) →
      (table.map FieldSpec.attrName).Nodup ∧
        ∀ (typeName : String) (trees : List HostTree),
          let fields := (table.map FieldSpec.attrName).zip trees
          ∀ (target : Target) (w : Value), encode (.struct typeName fields) target = .ok w →
            ∃ attrs, w = .record typeName attrs ∧
              List.Forall₂ (HostTree.EncodesField 1) fields attrs) := by
  refine ⟨fun _ _ => resolveAttr_attrName_eq_some_iff, fun h => ?_⟩
  have hnodup := attrName_nodup_of_findsItself h
  refine ⟨hnodup, fun typeName trees => ?_⟩
  intro fields target w hw
  exact HostTree.encodeAt_struct_of_nodup (hnodup.sublist (map_fst_zip_sublist _ trees)) hw

/-- `ßeta` and `SSeta` are one name in capitals, so that the later one is not found. Two fields that
are given the names of each other are both found, and a record has both. -/
theorem resolveAttr_attrName_exact_swap :
    let beta := [FieldSpec.ofIdentifier "ßeta", .ofIdentifier "SSeta"]
    let swap := [(FieldSpec.ofIdentifier "a").withName "b",
      (FieldSpec.ofIdentifier "b").withName "a"]
    let fields := (swap.map FieldSpec.attrName).zip [HostTree.signed 1, .signed 2]
    let w := Value.record "Swap" [("b", .int 1), ("a", .int 2)]
    (beta[0]? = some (.ofIdentifier "ßeta") ∧ (FieldSpec.ofIdentifier "ßeta").FindsItself beta 0) ∧
      (beta[1]? = some (.ofIdentifier "SSeta") ∧
        ¬ (FieldSpec.ofIdentifier "SSeta").FindsItself beta 1) ∧
      (∀ (j : Nat) (spec : FieldSpec), swap[j]? = some spec → spec.FindsItself swap j) ∧
      (swap.map FieldSpec.attrName).Nodup ∧ encode (.struct "Swap" fields) .any = .ok w ∧
      ∃ attrs, w = .record "Swap" attrs ∧ List.Forall₂ (HostTree.EncodesField 1) fields attrs := by
  intro beta swap fields w
  obtain ⟨hbeta, -⟩ := resolveAttr_attrName_exact beta
  obtain ⟨hswap, hrecord⟩ := resolveAttr_attrName_exact swap
  have hall : ∀ (j : Nat) (spec : FieldSpec), swap[j]? = some spec → spec.FindsItself swap j := by
    intro j spec hspec
    refine (hswap j spec hspec).mp ?_
    match j, hspec with
    | 0, rfl => decide
    | 1, rfl => decide
  have hw : encode (.struct "Swap" fields) .any = .ok w := rfl
  obtain ⟨hnodup, hencoded⟩ := hrecord hall
  exact ⟨⟨rfl, (hbeta 0 _ rfl).mp (by decide)⟩, ⟨rfl, (hbeta 1 _ rfl).not.mp (by decide)⟩, hall,
    hnodup, hw, hencoded "Swap" _ .any w hw⟩

end ScriptBridge
