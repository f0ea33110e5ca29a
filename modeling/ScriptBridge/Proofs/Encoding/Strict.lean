import ScriptBridge.Encoding.Strict
import ScriptBridge.Proofs.Induction
import ScriptBridge.Proofs.Parallel
import ScriptBridge.Proofs.Traversal

/-!
# What the strict encoder makes of each shape

One lemma for each function of the encoder that says exactly when it succeeds and with what. A list
of members is encoded when each member is, and containers are built from the encoded members as a
whole; that the encoder works one member at a time, with an index or a half-built container in hand,
matters to errors only.

- `HostTree.encodeItems_eq_ok`, `HostTree.encodeEntries_eq_ok`, `HostTree.encodeFields_eq_ok`: lists
  of members.
- `HostTree.encodeAt_seq_eq_ok`, `HostTree.encodeAt_map_eq_ok`,
  `HostTree.encodeAt_struct_eq_ok`: the containers, for the target that every member has.
- `HostTree.encodeAt_mono`: what can be encoded inside some containers can be inside fewer.
- `HostTree.encodeAt_of_target`: what a target makes of a shape, from what the encoder makes of it
  by itself.
-/

namespace ScriptBridge

@[simp] theorem guardDepth_eq_ok {α : Type} {depth : Nat} {result : Except ConvertError α} {a : α} :
    guardDepth depth result = .ok a ↔ depth ≤ maxDepth ∧ result = .ok a := by
  unfold guardDepth
  by_cases h : maxDepth < depth
  · rw [if_pos h]
    exact ⟨nofun, fun ⟨hle, _⟩ => absurd h (Nat.not_lt.mpr hle)⟩
  · rw [if_neg h]
    exact ⟨fun hr => ⟨Nat.not_lt.mp h, hr⟩, fun ⟨_, hr⟩ => hr⟩

/-- A dict takes hashable keys and no others. -/
theorem Dict.insert_eq_ok {d : Dict} {key value : Value} {r : Dict × Option Value} :
    d.insert key value = .ok r ↔
      key.hashable = true ∧ r = (Assoc.put Value.same d key value, d.get? key) := by
  unfold Dict.insert
  cases key.hashable with
  | true => simp [eq_comm]
  | false => simp

/-- Records take identifiers as names and no others. -/
theorem Attributes.set_eq_ok {attrs attrs' : Attributes} {name : String} {value : Value} :
    attrs.set name value = .ok attrs' ↔
      isIdentifier name = true ∧ attrs' = Assoc.put (· == ·) attrs name value := by
  unfold Attributes.set
  cases isIdentifier name with
  | true => simp [eq_comm]
  | false => simp

namespace HostTree

/-- A list of items is encoded when each item is. -/
theorem encodeItems_eq_ok {items : List HostTree} {depth index : Nat} {vs : List Value} :
    encodeItems items depth index = .ok vs ↔
      List.Forall₂ (fun t v => encodeAt t .any depth = .ok v) items vs :=
  items_eq_ok (encodeItems · depth) (fun _ => rfl) fun _ _ _ => rfl

/-- An entry stands for a pair of values: its key encodes to the first and its value to the
second. -/
def EncodesEntry (depth : Nat) (e : HostTree × HostTree) (p : Value × Value) : Prop :=
  encodeAt e.1 .any depth = .ok p.1 ∧ encodeAt e.2 .any depth = .ok p.2

/-- Entries make a dict when each is encoded and every key is hashable; the pairs are stored one
after the other. -/
theorem encodeEntries_eq_ok {entries : List (HostTree × HostTree)} {depth : Nat} {dict d : Dict} :
    encodeEntries entries depth dict = .ok d ↔
      ∃ pairs, List.Forall₂ (EncodesEntry depth) entries pairs ∧
        (∀ p ∈ pairs, p.1.hashable = true) ∧ d = Assoc.putAll Value.same dict pairs := by
  refine store_eq_ok (encodeEntries · depth) (fun _ => rfl) fun e rest dict d => ?_
  obtain ⟨k, v⟩ := e
  rw [encodeEntries]
  simp only [bind_eq_ok, ConvertError.locate_eq_ok, ConvertError.lift_eq_ok, Dict.insert_eq_ok]
  constructor
  · rintro ⟨key, hk, value, hv, -, ⟨hhash, rfl⟩, hrest⟩
    exact ⟨(key, value), ⟨hk, hv⟩, hhash, hrest⟩
  · rintro ⟨p, ⟨hk, hv⟩, hhash, hrest⟩
    exact ⟨p.1, hk, p.2, hv, _, ⟨hhash, rfl⟩, hrest⟩

/-- A field stands for an attribute of its name. -/
def EncodesField (depth : Nat) (f : String × HostTree) (a : String × Value) : Prop :=
  a.1 = f.1 ∧ encodeAt f.2 .any depth = .ok a.2

/-- Fields make a record when each is encoded and every name is an identifier; the attributes are
assigned one after the other. -/
theorem encodeFields_eq_ok {typeName : String} {fields : List (String × HostTree)} {depth : Nat}
    {attrs attrs' : Attributes} :
    encodeFields typeName fields depth attrs = .ok attrs' ↔
      ∃ pairs, List.Forall₂ (EncodesField depth) fields pairs ∧
        (∀ p ∈ pairs, isIdentifier p.1 = true) ∧ attrs' = Assoc.putAll (· == ·) attrs pairs := by
  refine store_eq_ok (encodeFields typeName · depth) (fun _ => rfl) fun f rest attrs attrs' => ?_
  obtain ⟨name, t⟩ := f
  rw [encodeFields]
  simp only [bind_eq_ok, ConvertError.locate_eq_ok, ConvertError.lift_eq_ok, Attributes.set_eq_ok]
  constructor
  · rintro ⟨value, hv, -, ⟨hname, rfl⟩, hrest⟩
    exact ⟨(name, value), ⟨rfl, hv⟩, hname, hrest⟩
  · rintro ⟨⟨_, value⟩, ⟨rfl, hv⟩, hname, hrest⟩
    exact ⟨value, hv, _, ⟨hname, rfl⟩, hrest⟩

/-! ## Containers -/

theorem encodeAt_seq_eq_ok {items : List HostTree} {depth : Nat} {v : Value} :
    encodeAt (seq items) .any depth = .ok v ↔ depth ≤ maxDepth ∧
      ∃ vs, List.Forall₂ (fun t v => encodeAt t .any (depth + 1) = .ok v) items vs ∧
        v = .list vs := by
  simp only [encodeAt, Target.ofItems?, guardDepth_eq_ok, bind_eq_ok, pure_eq_ok,
    encodeItems_eq_ok, eq_comm (b := v)]

theorem encodeAt_map_eq_ok {entries : List (HostTree × HostTree)} {depth : Nat} {v : Value} :
    encodeAt (map entries) .any depth = .ok v ↔ depth ≤ maxDepth ∧
      ∃ pairs, List.Forall₂ (EncodesEntry (depth + 1)) entries pairs ∧
        (∀ p ∈ pairs, p.1.hashable = true) ∧ v = .dict (Assoc.putAll Value.same [] pairs) := by
  have haccepts : Target.accepts .any .dict = true := rfl
  simp only [encodeAt, haccepts, if_true, guardDepth_eq_ok, bind_eq_ok, pure_eq_ok,
    encodeEntries_eq_ok]
  refine and_congr_right fun _ => ⟨?_, ?_⟩
  · rintro ⟨d, ⟨pairs, hpairs, hall, rfl⟩, rfl⟩
    exact ⟨pairs, hpairs, hall, rfl⟩
  · rintro ⟨pairs, hpairs, hall, rfl⟩
    exact ⟨_, ⟨pairs, hpairs, hall, rfl⟩, rfl⟩

theorem encodeAt_struct_eq_ok {typeName : String} {fields : List (String × HostTree)} {depth : Nat}
    {v : Value} :
    encodeAt (struct typeName fields) .any depth = .ok v ↔ depth ≤ maxDepth ∧
      ∃ attrs, List.Forall₂ (EncodesField (depth + 1)) fields attrs ∧
        (∀ a ∈ attrs, isIdentifier a.1 = true) ∧
          v = .record typeName (Assoc.putAll (· == ·) [] attrs) := by
  have haccepts : Target.accepts .any .record = true := rfl
  simp only [encodeAt, haccepts, if_true, guardDepth_eq_ok, bind_eq_ok, pure_eq_ok,
    encodeFields_eq_ok]
  refine and_congr_right fun _ => ⟨?_, ?_⟩
  · rintro ⟨d, ⟨attrs, hattrs, hall, rfl⟩, rfl⟩
    exact ⟨attrs, hattrs, hall, rfl⟩
  · rintro ⟨attrs, hattrs, hall, rfl⟩
    exact ⟨_, ⟨attrs, hattrs, hall, rfl⟩, rfl⟩

/-- What can be encoded inside some containers can be encoded inside fewer. -/
theorem encodeAt_mono {t : HostTree} {depth depth' : Nat} {v : Value} (hle : depth' ≤ depth)
    (h : encodeAt t .any depth = .ok v) : encodeAt t .any depth' = .ok v := by
  induction t generalizing depth depth' v with
  | seq items ih =>
    obtain ⟨hd, vs, hvs, rfl⟩ := encodeAt_seq_eq_ok.mp h
    refine encodeAt_seq_eq_ok.mpr ⟨Nat.le_trans hle hd, vs, ?_, rfl⟩
    exact forall₂_imp_of_mem hvs fun t ht v _ hv => ih t ht (Nat.succ_le_succ hle) hv
  | map entries ih =>
    obtain ⟨hd, pairs, hpairs, hhash, rfl⟩ := encodeAt_map_eq_ok.mp h
    refine encodeAt_map_eq_ok.mpr ⟨Nat.le_trans hle hd, pairs, ?_, hhash, rfl⟩
    exact forall₂_imp_of_mem hpairs fun e he p _ hp =>
      ⟨(ih e he).1 (Nat.succ_le_succ hle) hp.1, (ih e he).2 (Nat.succ_le_succ hle) hp.2⟩
  | struct typeName fields ih =>
    obtain ⟨hd, attrs, hattrs, hnames, rfl⟩ := encodeAt_struct_eq_ok.mp h
    refine encodeAt_struct_eq_ok.mpr ⟨Nat.le_trans hle hd, attrs, ?_, hnames, rfl⟩
    exact forall₂_imp_of_mem hattrs fun f hf a _ ha =>
      ⟨ha.1, ih f hf (Nat.succ_le_succ hle) ha.2⟩
  | _ =>
    simp only [encodeAt, guardDepth_eq_ok] at h ⊢
    exact ⟨Nat.le_trans hle h.1, h.2⟩

/-- What can be encoded inside containers can be encoded on its own. -/
theorem encode_eq_ok_of_encodeAt {t : HostTree} {depth : Nat} {v : Value}
    (h : encodeAt t .any depth = .ok v) : encode t .any = .ok v :=
  encodeAt_mono (Nat.zero_le depth) h

/-! ## Targets -/

theorem leaf_eq_ok {t : HostTree} {target : Target} {v w : Value} :
    leaf t target v = .ok w ↔ target.accepts v.kind = true ∧ w = v := by
  unfold leaf
  cases target.accepts v.kind <;> simp [eq_comm]

/-- A sequence is encoded for the targets that say what to make of its items. -/
theorem encodeAt_seq_target_eq_ok {items : List HostTree} {target : Target} {depth : Nat}
    {w : Value} :
    encodeAt (seq items) target depth = .ok w ↔ depth ≤ maxDepth ∧
      ∃ build, target.ofItems? = some build ∧
        ∃ vs, List.Forall₂ (fun t v => encodeAt t .any (depth + 1) = .ok v) items vs ∧
          w = build vs := by
  rw [encodeAt, guardDepth_eq_ok]
  refine and_congr_right fun _ => ?_
  cases target.ofItems? with
  | none => simp
  | some build =>
    simp only [bind_eq_ok, pure_eq_ok, encodeItems_eq_ok, Option.some.injEq, exists_eq_left',
      eq_comm (b := w)]

/-- A map is encoded for the targets that take a dict, and a struct for those that take a record. -/
theorem encodeAt_map_target_eq_ok {entries : List (HostTree × HostTree)} {target : Target}
    {depth : Nat} {w : Value} :
    encodeAt (map entries) target depth = .ok w ↔
      target.accepts .dict = true ∧ encodeAt (map entries) .any depth = .ok w := by
  have haccepts : Target.accepts .any .dict = true := rfl
  simp only [encodeAt, guardDepth_eq_ok, haccepts, if_true]
  cases target.accepts .dict <;> simp

theorem encodeAt_struct_target_eq_ok {typeName : String} {fields : List (String × HostTree)}
    {target : Target} {depth : Nat} {w : Value} :
    encodeAt (struct typeName fields) target depth = .ok w ↔
      target.accepts .record = true ∧ encodeAt (struct typeName fields) .any depth = .ok w := by
  have haccepts : Target.accepts .any .record = true := rfl
  simp only [encodeAt, guardDepth_eq_ok, haccepts, if_true]
  cases target.accepts .record <;> simp

/-- For a target the encoder gives what it gives anyway, except that the items of a sequence become
a tuple or a set where the target asks for one. -/
theorem encodeAt_of_target {t : HostTree} {target : Target} {depth : Nat} {w : Value}
    (h : encodeAt t target depth = .ok w) :
    encodeAt t .any depth = .ok w ∨ ∃ vs, encodeAt t .any depth = .ok (.list vs) ∧
      (target = .tuple ∧ w = .tuple vs ∨ target = .set ∧ w = .set (Elements.ofList vs)) := by
  cases t with
  | seq items =>
    obtain ⟨hd, build, hbuild, vs, hvs, rfl⟩ := encodeAt_seq_target_eq_ok.mp h
    have hany : encodeAt (seq items) .any depth = .ok (.list vs) :=
      encodeAt_seq_eq_ok.mpr ⟨hd, vs, hvs, rfl⟩
    cases target with
    | any | list =>
      obtain rfl := Option.some.inj hbuild
      exact .inl hany
    | tuple =>
      obtain rfl := Option.some.inj hbuild
      exact .inr ⟨vs, hany, .inl ⟨rfl, rfl⟩⟩
    | set =>
      obtain rfl := Option.some.inj hbuild
      exact .inr ⟨vs, hany, .inr ⟨rfl, rfl⟩⟩
    | _ => cases hbuild
  | map entries => exact .inl (encodeAt_map_target_eq_ok.mp h).2
  | struct typeName fields => exact .inl (encodeAt_struct_target_eq_ok.mp h).2
  | unsupported name => simp [encodeAt] at h
  | _ =>
    left
    simp only [encodeAt, guardDepth_eq_ok, leaf_eq_ok] at h ⊢
    exact ⟨h.1, rfl, h.2.2⟩

end HostTree

end ScriptBridge
