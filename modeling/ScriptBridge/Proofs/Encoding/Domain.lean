import ScriptBridge.Proofs.Encoding.Strict
import ScriptBridge.Proofs.Parts

/-!
# What the strict encoder takes

The encoder fails for one of four reasons, each of them a fault of one part of the shape, and the
root of the error names it. What has none of these faults is encoded.

- `HostTree.Fault`: the four faults, with the root that each gives an error.
- `HostTree.encodeItems_failsAs`, `HostTree.encodeEntries_failsAs`, `HostTree.encodeFields_failsAs`:
  a list of members fails as one of them does, or where a container refuses one.
- `HostTree.encodeAt_fault`: every failure comes from a fault.
- `HostTree.encodeAt_part`: where a shape is encoded, so is each part at its own depth.
- `HostTree.supported_of_encode`, `HostTree.nestedWithin_of_encode`, `HostTree.key_of_encode`,
  `HostTree.namesValid_of_encode`: what is encoded has none of the faults.
- `HostTree.encode_succeeds_iff`: which shapes are encoded, and what the error is when depth is all
  that is wrong.
-/

namespace ScriptBridge

theorem guardDepth_eq_error {α : Type} {depth : Nat} {result : Except ConvertError α}
    {e : ConvertError} :
    guardDepth depth result = .error e ↔
      maxDepth < depth ∧ e = .tooDeep maxDepth ∨ depth ≤ maxDepth ∧ result = .error e := by
  unfold guardDepth
  by_cases h : maxDepth < depth
  · simp [h, Nat.not_le.mpr h, eq_comm]
  · simp [h, Nat.not_lt.mp h]

/-- A dict refuses an unhashable key by its kind. -/
theorem Dict.insert_eq_error {d : Dict} {key value : Value} {cause : ValueError} :
    d.insert key value = .error cause ↔ key.hashable = false ∧ cause = .unhashable key.kind := by
  unfold Dict.insert
  cases key.hashable with
  | true => simp
  | false => simp [eq_comm]

/-- A record refuses a name that is no identifier. -/
theorem Attributes.set_eq_error {attrs : Attributes} {name : String} {value : Value}
    {cause : ValueError} :
    attrs.set name value = .error cause ↔
      isIdentifier name = false ∧ cause = .invalidAttribute name := by
  unfold Attributes.set
  cases isIdentifier name with
  | true => simp
  | false => simp [eq_comm]

namespace HostTree

variable {t : HostTree} {depth : Nat} {e : ConvertError}

/-! ## Failures -/

/-- Why a shape below `depth` containers is not encoded, and the root of the error that says so. -/
inductive Fault (t : HostTree) (depth : Nat) : ConvertError → Prop
  | tooDeep {n : Nat} {part : HostTree} (h : Part members n part t)
      (hdeep : maxDepth < depth + n) : Fault t depth (.tooDeep maxDepth)
  | unsupported {n : Nat} {name : String} (h : Part members n (unsupported name) t) :
      Fault t depth (.unsupported name)
  | unhashable {n : Nat} {entries : List (HostTree × HostTree)} {entry : HostTree × HostTree}
      {key : Value} (h : Part members n (map entries) t) (hentry : entry ∈ entries)
      (hkey : encode entry.1 .any = .ok key) (hhash : key.hashable = false) :
      Fault t depth (.refused (.unhashable key.kind))
  | badName {n : Nat} {typeName : String} {fields : List (String × HostTree)}
      {field : String × HostTree} (h : Part members n (struct typeName fields) t)
      (hfield : field ∈ fields) (hname : isIdentifier field.1 = false) :
      Fault t depth (.refused (.invalidAttribute field.1))

/-- A fault of a member is a fault of the container. -/
theorem Fault.of_member {member : HostTree} {root : ConvertError} (hmember : member ∈ members t)
    (h : Fault member (depth + 1) root) : Fault t depth root := by
  cases h with
  | tooDeep h hdeep => exact .tooDeep (.deeper hmember h) (by omega)
  | unsupported h => exact .unsupported (.deeper hmember h)
  | unhashable h hentry hkey hhash => exact .unhashable (.deeper hmember h) hentry hkey hhash
  | badName h hfield hname => exact .badName (.deeper hmember h) hfield hname

/-- A shape fails, and its error has the root of another one. -/
def FailsAs (e : ConvertError) (depth : Nat) (t : HostTree) : Prop :=
  ∃ cause, encodeAt t .any depth = .error cause ∧ e.root = cause.root

theorem failsAs_of_locate {place : Place} (h : ConvertError.locate place (encodeAt t .any depth) =
    .error e) : FailsAs e depth t :=
  ConvertError.root_of_locate_eq_error h

theorem encodeItems_failsAs {items : List HostTree} {index : Nat}
    (h : encodeItems items depth index = .error e) : ∃ t ∈ items, FailsAs e depth t := by
  refine exists_mem_of_eq_error (encodeItems · depth) (fun _ => nofun) (fun t rest index h => ?_) h
  rw [encodeItems] at h
  rcases bind_eq_error.mp h with hitem | ⟨_, -, h⟩
  · exact .inl (failsAs_of_locate hitem)
  rcases bind_eq_error.mp h with hrest | ⟨_, -, h⟩
  · exact .inr ⟨_, hrest⟩
  · cases h

/-- Entries fail where a key or a value does, or at a key that the dict refuses. -/
theorem encodeEntries_failsAs {entries : List (HostTree × HostTree)} {dict : Dict}
    (h : encodeEntries entries depth dict = .error e) :
    ∃ entry ∈ entries, FailsAs e depth entry.1 ∨ FailsAs e depth entry.2 ∨
      ∃ key, encodeAt entry.1 .any depth = .ok key ∧ key.hashable = false ∧
        e.root = .refused (.unhashable key.kind) := by
  refine exists_mem_of_eq_error (encodeEntries · depth) (fun _ => nofun) ?_ h
  rintro ⟨k, v⟩ rest dict h
  rw [encodeEntries] at h
  rcases bind_eq_error.mp h with hkey | ⟨key, hkey, h⟩
  · exact .inl (.inl (failsAs_of_locate hkey))
  rcases bind_eq_error.mp h with hvalue | ⟨value, -, h⟩
  · exact .inl (.inr (.inl (failsAs_of_locate hvalue)))
  rcases bind_eq_error.mp h with hinsert | ⟨_, -, hrest⟩
  · obtain ⟨cause, hlift, hroot⟩ := ConvertError.root_of_locate_eq_error hinsert
    obtain ⟨cause, hrefused, rfl⟩ := ConvertError.eq_refused_of_lift_eq_error hlift
    obtain ⟨hhash, rfl⟩ := Dict.insert_eq_error.mp hrefused
    exact .inl (.inr (.inr ⟨key, ConvertError.locate_eq_ok.mp hkey, hhash, hroot⟩))
  · exact .inr ⟨_, hrest⟩

/-- Fields fail where one of them does, or at a name that the record refuses. -/
theorem encodeFields_failsAs {typeName : String} {fields : List (String × HostTree)}
    {attrs : Attributes} (h : encodeFields typeName fields depth attrs = .error e) :
    ∃ field ∈ fields, FailsAs e depth field.2 ∨
      isIdentifier field.1 = false ∧ e.root = .refused (.invalidAttribute field.1) := by
  refine exists_mem_of_eq_error (encodeFields typeName · depth) (fun _ => nofun) ?_ h
  rintro ⟨name, t⟩ rest attrs h
  rw [encodeFields] at h
  rcases bind_eq_error.mp h with hvalue | ⟨value, -, h⟩
  · exact .inl (.inl (failsAs_of_locate hvalue))
  rcases bind_eq_error.mp h with hset | ⟨_, -, hrest⟩
  · obtain ⟨cause, hrefused, rfl⟩ := ConvertError.eq_refused_of_lift_eq_error hset
    obtain ⟨hname, rfl⟩ := Attributes.set_eq_error.mp hrefused
    exact .inl (.inr ⟨hname, rfl⟩)
  · exact .inr ⟨_, hrest⟩

theorem fault_of_guardDepth {result : Except ConvertError Value}
    (h : guardDepth depth result = .error e)
    (hresult : result = .error e → Fault t depth e.root) : Fault t depth e.root := by
  rcases guardDepth_eq_error.mp h with ⟨hdeep, rfl⟩ | ⟨-, h⟩
  · exact .tooDeep (.self t) hdeep
  · exact hresult h

/-- **Every failure comes from a fault**, and the root of the error names it. -/
theorem encodeAt_fault (h : encodeAt t .any depth = .error e) : Fault t depth e.root := by
  induction t generalizing depth e with
  | seq items ih =>
    rw [encodeAt] at h
    refine fault_of_guardDepth h fun h => ?_
    rcases bind_eq_error.mp h with hitems | ⟨_, -, h⟩
    · obtain ⟨t, ht, cause, hcause, hroot⟩ := encodeItems_failsAs hitems
      rw [hroot]
      exact (ih t ht hcause).of_member ht
    · cases h
  | map entries ih =>
    rw [encodeAt] at h
    refine fault_of_guardDepth h fun h => ?_
    rcases bind_eq_error.mp h with hentries | ⟨_, -, h⟩
    · obtain ⟨entry, hentry, hfails⟩ := encodeEntries_failsAs hentries
      rcases hfails with ⟨cause, hcause, hroot⟩ | ⟨cause, hcause, hroot⟩ | ⟨key, hkey, hhash, hroot⟩
      · rw [hroot]
        exact ((ih entry hentry).1 hcause).of_member (key_mem_keysAndValues hentry)
      · rw [hroot]
        exact ((ih entry hentry).2 hcause).of_member (value_mem_keysAndValues hentry)
      · rw [hroot]
        exact .unhashable (.self _) hentry (encode_eq_ok_of_encodeAt hkey) hhash
    · cases h
  | struct typeName fields ih =>
    rw [encodeAt] at h
    refine fault_of_guardDepth h fun h => ?_
    rcases bind_eq_error.mp h with hfields | ⟨_, -, h⟩
    · obtain ⟨field, hfield, hfails⟩ := encodeFields_failsAs hfields
      rcases hfails with ⟨cause, hcause, hroot⟩ | ⟨hname, hroot⟩
      · rw [hroot]
        exact (ih field hfield hcause).of_member (List.mem_map_of_mem hfield)
      · rw [hroot]
        exact .badName (.self _) hfield hname
    · cases h
  | unsupported name =>
    rw [encodeAt] at h
    refine fault_of_guardDepth h fun h => ?_
    obtain rfl := Except.error.inj h
    exact .unsupported (.self _)
  | _ =>
    -- the target takes every kind, so that only depth is left
    rw [encodeAt] at h
    exact fault_of_guardDepth h fun h => by cases h

/-! ## Successes -/

/-- Where a container is encoded, so is each member. -/
theorem encodeAt_member {member : HostTree} {v : Value} (hmember : member ∈ members t)
    (h : encodeAt t .any depth = .ok v) : ∃ w, encodeAt member .any (depth + 1) = .ok w := by
  cases t with
  | seq items =>
    obtain ⟨-, vs, hvs, -⟩ := encodeAt_seq_eq_ok.mp h
    exact forall₂_exists_iff.mp ⟨vs, hvs⟩ member hmember
  | map entries =>
    obtain ⟨-, pairs, hpairs, -, -⟩ := encodeAt_map_eq_ok.mp h
    obtain ⟨entry, hentry, hside⟩ := mem_keysAndValues.mp hmember
    obtain ⟨p, hp⟩ := forall₂_exists_iff.mp ⟨pairs, hpairs⟩ entry hentry
    rcases hside with rfl | rfl
    · exact ⟨p.1, hp.1⟩
    · exact ⟨p.2, hp.2⟩
  | struct typeName fields =>
    obtain ⟨-, attrs, hattrs, -, -⟩ := encodeAt_struct_eq_ok.mp h
    obtain ⟨field, hfield, rfl⟩ := List.mem_map.mp hmember
    obtain ⟨a, ha⟩ := forall₂_exists_iff.mp ⟨attrs, hattrs⟩ field hfield
    exact ⟨a.2, ha.2⟩
  | _ => cases hmember

/-- Where a shape is encoded, so is each part at its own depth. -/
theorem encodeAt_part {part : HostTree} {n : Nat} {v : Value} (hpart : Part members n part t)
    (h : encodeAt t .any depth = .ok v) : ∃ w, encodeAt part .any (depth + n) = .ok w := by
  induction hpart generalizing depth v with
  | self => exact ⟨v, h⟩
  | deeper hmember _ ih =>
    obtain ⟨w, hw⟩ := encodeAt_member hmember h
    obtain ⟨u, hu⟩ := ih hw
    exact ⟨u, by rwa [Nat.add_right_comm] at hu⟩

/-- Whatever is encoded is not too deep. -/
theorem depth_le_of_encodeAt {v : Value} (h : encodeAt t .any depth = .ok v) :
    depth ≤ maxDepth := by
  cases t <;> exact (guardDepth_eq_ok.mp h).1

/-! ## The domain -/

/-- No part is a leaf without a script form. -/
def Supported (t : HostTree) : Prop := ∀ n name, ¬ Part members n (unsupported name) t

/-- A map in the shape has this key. -/
def HasKey (t key : HostTree) : Prop :=
  ∃ n entries value, Part members n (map entries) t ∧ (key, value) ∈ entries

/-- The names of all fields are identifiers. -/
def NamesValid (t : HostTree) : Prop :=
  ∀ n typeName fields, Part members n (struct typeName fields) t →
    ∀ field ∈ fields, isIdentifier field.1 = true

theorem nestedWithin_of_encode {w : Value} (h : encode t .any = .ok w) :
    NestedWithin members maxDepth t := by
  intro n part hpart
  obtain ⟨_, hencoded⟩ := encodeAt_part hpart h
  simpa using depth_le_of_encodeAt hencoded

theorem supported_of_encode {w : Value} (h : encode t .any = .ok w) : t.Supported := by
  intro n name hpart
  obtain ⟨_, hencoded⟩ := encodeAt_part hpart h
  simp [encodeAt] at hencoded

theorem key_of_encode {w : Value} {key : HostTree} (h : encode t .any = .ok w)
    (hkey : t.HasKey key) : ∃ k, encode key .any = .ok k ∧ k.hashable = true := by
  obtain ⟨n, entries, value, hpart, hentry⟩ := hkey
  obtain ⟨_, hencoded⟩ := encodeAt_part hpart h
  obtain ⟨-, pairs, hpairs, hhash, -⟩ := encodeAt_map_eq_ok.mp hencoded
  obtain ⟨p, hp, hkey, -⟩ := forall₂_exists_right hpairs _ hentry
  exact ⟨p.1, encode_eq_ok_of_encodeAt hkey, hhash p hp⟩

theorem namesValid_of_encode {w : Value} (h : encode t .any = .ok w) : t.NamesValid := by
  intro n typeName fields hpart field hfield
  obtain ⟨_, hencoded⟩ := encodeAt_part hpart h
  obtain ⟨-, attrs, hattrs, hnames, -⟩ := encodeAt_struct_eq_ok.mp hencoded
  obtain ⟨a, ha, hname, -⟩ := forall₂_exists_right hattrs field hfield
  exact hname ▸ hnames a ha

/-- A shape whose leaves, keys and names are in order can only be too deep. -/
theorem tooDeep_of_encodeAt (hsupported : t.Supported)
    (hkeys : ∀ key, t.HasKey key → ∀ w, encode key .any = .ok w → w.hashable = true)
    (hnames : t.NamesValid) (h : encodeAt t .any depth = .error e) :
    e.root = .tooDeep maxDepth ∧ ∃ n part, Part members n part t ∧ maxDepth < depth + n := by
  generalize hroot : e.root = root
  cases hroot ▸ encodeAt_fault h with
  | tooDeep hpart hdeep => exact ⟨rfl, _, _, hpart, hdeep⟩
  | unsupported hpart => exact absurd hpart (hsupported _ _)
  | @unhashable n entries entry key hpart hentry hkey hhash =>
    rw [hkeys entry.1 ⟨n, entries, entry.2, hpart, hentry⟩ key hkey] at hhash
    cases hhash
  | badName hpart hfield hname =>
    rw [hnames _ _ _ hpart _ hfield] at hname
    cases hname

/-- **The domain of the strict encoder.** A shape is encoded exactly when all its leaves have script
forms, no part is enclosed by more than 256 containers, every key of a map becomes a hashable value,
and all field names are identifiers. Options and pointers are no part of a shape, and script values
are leaves of it. When depth is all that is wrong, the error says so; a key that is too deep to be
encoded at all is no other fault. -/
theorem encode_succeeds_iff (t : HostTree) :
    ((∃ w, encode t .any = .ok w) ↔ t.Supported ∧ NestedWithin members 256 t ∧
        (∀ key, t.HasKey key → ∃ w, encode key .any = .ok w ∧ w.hashable = true) ∧
        t.NamesValid) ∧
      (t.Supported →
        (∀ key, t.HasKey key → ∀ w, encode key .any = .ok w → w.hashable = true) →
        t.NamesValid → ¬ NestedWithin members 256 t →
        ∃ e, encode t .any = .error e ∧ e.root = .tooDeep 256) := by
  refine ⟨⟨?_, ?_⟩, ?_⟩
  · rintro ⟨w, hw⟩
    exact ⟨supported_of_encode hw, nestedWithin_of_encode hw, fun _ => key_of_encode hw,
      namesValid_of_encode hw⟩
  · rintro ⟨hsupported, hwithin, hkeys, hnames⟩
    have hkeys' : ∀ key, t.HasKey key → ∀ w, encode key .any = .ok w → w.hashable = true := by
      intro key hkey w hw
      obtain ⟨w', hw', hhash⟩ := hkeys key hkey
      rwa [Except.ok.inj (hw.symm.trans hw')]
    rcases ok_or_error (encode t .any) with hok | ⟨e, he⟩
    · exact hok
    · obtain ⟨-, n, part, hpart, hdeep⟩ := tooDeep_of_encodeAt hsupported hkeys' hnames he
      have hle : n ≤ maxDepth := hwithin n part hpart
      omega
  · intro hsupported hkeys hnames hdeep
    rcases ok_or_error (encode t .any) with ⟨w, hw⟩ | ⟨e, he⟩
    · exact absurd (nestedWithin_of_encode hw) hdeep
    · exact ⟨e, he, (tooDeep_of_encodeAt hsupported hkeys hnames he).1⟩

/-- So many sequences, each the only item of the next. -/
def tower : Nat → HostTree
  | 0 => nil
  | n + 1 => seq [tower n]

/-- The parts of a tower are its upper ends. -/
theorem part_tower {n height : Nat} {part : HostTree} (h : Part members n part (tower height)) :
    ∃ rest, n + rest = height ∧ part = tower rest := by
  induction height generalizing n with
  | zero =>
    cases h with
    | self => exact ⟨0, rfl, rfl⟩
    | deeper hmember _ => cases hmember
  | succ height ih =>
    cases h with
    | self => exact ⟨height + 1, Nat.zero_add _, rfl⟩
    | deeper hmember h =>
      obtain rfl := List.mem_singleton.mp hmember
      obtain ⟨rest, rfl, hpart⟩ := ih h
      exact ⟨rest, Nat.add_right_comm _ _ _, hpart⟩

theorem part_top_tower (height : Nat) : Part members height nil (tower height) := by
  induction height with
  | zero => exact .self _
  | succ height ih => exact .deeper (List.mem_singleton_self _) ih

/-- The limit is sharp: something inside 256 sequences is encoded, and inside one more it is not. -/
theorem encode_succeeds_iff_tower :
    (∃ w, encode (tower 256) .any = .ok w) ∧
      ∃ e, encode (tower 257) .any = .error e ∧ e.root = .tooDeep 256 := by
  have hshape {n height : Nat} {part : HostTree} (h : Part members n part (tower height)) :
      part = nil ∨ ∃ item, part = seq [item] := by
    obtain ⟨rest, -, rfl⟩ := part_tower h
    cases rest with
    | zero => exact .inl rfl
    | succ rest => exact .inr ⟨tower rest, rfl⟩
  have hsupported (height : Nat) : (tower height).Supported := fun n name hpart => by
    rcases hshape hpart with h | ⟨_, h⟩ <;> cases h
  have hkeys (height : Nat) (key : HostTree) : ¬ (tower height).HasKey key := by
    rintro ⟨n, entries, value, hpart, -⟩
    rcases hshape hpart with h | ⟨_, h⟩ <;> cases h
  have hnames (height : Nat) : (tower height).NamesValid := fun n typeName fields hpart => by
    rcases hshape hpart with h | ⟨_, h⟩ <;> cases h
  have hwithin : NestedWithin members 256 (tower 256) := fun n part hpart => by
    obtain ⟨rest, hrest, -⟩ := part_tower hpart
    omega
  have hdeep : ¬ NestedWithin members 256 (tower 257) := fun h =>
    absurd (h 257 nil (part_top_tower 257)) (by decide)
  refine ⟨(encode_succeeds_iff _).1.mpr ⟨hsupported _, hwithin, ?_, hnames _⟩,
    (encode_succeeds_iff _).2 (hsupported _) ?_ (hnames _) hdeep⟩
  · exact fun key hkey => absurd hkey (hkeys _ key)
  · exact fun key hkey => absurd hkey (hkeys _ key)

end HostTree

end ScriptBridge
