import ScriptBridge.Proofs.Assoc
import Mathlib.Data.List.Forall2
import Mathlib.Data.List.Pairwise
import Mathlib.Order.Defs.Unbundled

/-!
# Relations that are equivalences

Values of nested kinds are compared by looking the members of one container up in the other, with
the comparison itself as the test, and never the other way round. That such a comparison is an
equivalence comes out member by member, so that what is proved here is about one element at a time,
and about lists of elements at which it is known.

- `EquivAt`: a relation is, as far as one element goes, an equivalence. To turn the comparison of
  two containers around takes a step from one member over its partner to another member, so symmetry
  is proved together with the two forms of transitivity that such steps are.
- `EquivAt.of_key`: elements that are compared by a key.
- `EquivAt.forall₂`, `EquivAt.forall₂_indexed`: lists that are compared member by member.
- `EquivAt.prod`: pairs that are compared part by part.
- `EquivAt.of_view`, `EquivAt.of_iff`: things that are compared by what they are built from.
- `Covers`, `EquivAt.covers`: as many members, each with a partner, in whatever order.
- `SameMap`, `EquivAt.maps`: maps whose keys are looked up in each other.
- `EquivOn`: an equivalence among all good elements.
-/

namespace ScriptBridge

variable {α : Type} {r : α → α → Prop} {good : α → Prop}

/-! ## Relations that are an equivalence at one element -/

/-- A relation is symmetric at an element, and transitive where the element stands first or between
the other two. The other elements have to be good ones. -/
structure EquivAt (r : α → α → Prop) (good : α → Prop) (a : α) : Prop where
  symm : ∀ {b}, good b → (r a b ↔ r b a)
  first : ∀ {b c}, good b → good c → r a b → r b c → r a c
  between : ∀ {b c}, good b → good c → r b a → r a c → r b c

namespace EquivAt

/-- What is related to an element is related to each other. -/
theorem euclidean {a b c : α} (h : EquivAt r good a) (hb : good b) (hc : good c) (hab : r a b)
    (hac : r a c) : r b c :=
  h.between hb hc ((h.symm hb).mp hab) hac

/-- What is related to a neighbour of an element is related to each other too. -/
theorem euclidean_of_neighbour {a b c d : α} (h : EquivAt r good a) (hb : good b) (hc : good c)
    (hd : good d) (hba : r b a) (hbc : r b c) (hbd : r b d) : r c d := by
  have hab := (h.symm hb).mpr hba
  exact h.euclidean hc hd (h.first hb hc hab hbc) (h.first hb hd hab hbd)

/-- Fewer elements may be good. -/
theorem mono {good' : α → Prop} {a : α} (h : EquivAt r good a) (hgood : ∀ b, good' b → good b) :
    EquivAt r good' a where
  symm hb := h.symm (hgood _ hb)
  first hb hc := h.first (hgood _ hb) (hgood _ hc)
  between hb hc := h.between (hgood _ hb) (hgood _ hc)

/-- Lists that are related member by member, where it depends on the index which members are
good. -/
theorem forall₂_indexed {goodAt : Nat → α → Prop} {as : List α}
    (h : ∀ (i : Nat) (a : α), as[i]? = some a → EquivAt r (goodAt i) a) :
    EquivAt (List.Forall₂ r) (fun bs => ∀ (i : Nat) (b : α), bs[i]? = some b → goodAt i b) as := by
  induction as generalizing goodAt with
  | nil =>
    refine ⟨fun {bs} _ => ?_, fun {bs cs} _ _ hab hbc => ?_, fun {bs cs} _ _ hba hac => ?_⟩
    · rw [List.forall₂_nil_left_iff, List.forall₂_nil_right_iff]
    · obtain rfl := List.forall₂_nil_left_iff.mp hab
      exact hbc
    · obtain rfl := List.forall₂_nil_right_iff.mp hba
      exact hac
  | cons a as ih =>
    have ha : EquivAt r (goodAt 0) a := h 0 a rfl
    have ih : EquivAt (List.Forall₂ r)
        (fun bs => ∀ (i : Nat) (b : α), bs[i]? = some b → goodAt (i + 1) b) as :=
      ih fun i a ha => h (i + 1) a ha
    refine ⟨fun {bs} hbs => ?_, fun {bs cs} hbs hcs hab hbc => ?_,
      fun {bs cs} hbs hcs hba hac => ?_⟩
    · cases bs with
      | nil => simp
      | cons b bs =>
        rw [List.forall₂_cons, List.forall₂_cons, ha.symm (hbs 0 b rfl),
          ih.symm fun i b hb => hbs (i + 1) b hb]
    · cases hab with
      | cons hab habs =>
        cases hbc with
        | cons hbc hbcs =>
          exact .cons (ha.first (hbs 0 _ rfl) (hcs 0 _ rfl) hab hbc)
            (ih.first (fun i b hb => hbs (i + 1) b hb) (fun i c hc => hcs (i + 1) c hc) habs hbcs)
    · cases hba with
      | cons hba hbas =>
        cases hac with
        | cons hac hacs =>
          exact .cons (ha.between (hbs 0 _ rfl) (hcs 0 _ rfl) hba hac)
            (ih.between (fun i b hb => hbs (i + 1) b hb) (fun i c hc => hcs (i + 1) c hc) hbas hacs)

/-- Lists that are related member by member. -/
theorem forall₂ {as : List α} (h : ∀ a ∈ as, EquivAt r good a) :
    EquivAt (List.Forall₂ r) (fun bs => ∀ b ∈ bs, good b) as := by
  have hindexed : EquivAt (List.Forall₂ r)
      (fun bs => ∀ (i : Nat) (b : α), bs[i]? = some b → good b) as :=
    forall₂_indexed fun _ a ha => h a (List.mem_of_getElem? ha)
  exact hindexed.mono fun _ hbs _ b hb => hbs b (List.mem_of_getElem? hb)

/-- Pairs that are related part by part. -/
theorem prod {β : Type} {s : β → β → Prop} {sound : β → Prop} {p : α × β}
    (h : EquivAt r good p.1) (h' : EquivAt s sound p.2) :
    EquivAt (fun p q : α × β => r p.1 q.1 ∧ s p.2 q.2) (fun p => good p.1 ∧ sound p.2) p where
  symm hb := and_congr (h.symm hb.1) (h'.symm hb.2)
  first hb hc hab hbc := ⟨h.first hb.1 hc.1 hab.1 hbc.1, h'.first hb.2 hc.2 hab.2 hbc.2⟩
  between hb hc hba hac := ⟨h.between hb.1 hc.1 hba.1 hac.1, h'.between hb.2 hc.2 hba.2 hac.2⟩

end EquivAt

/-- A relation on built things that is a relation on what they are built from. Only what is built
from the element itself, or from its neighbours, has to be related when the parts are. -/
theorem EquivAt.of_view {β : Type} (build : β → α) {s : β → β → Prop} {sound : β → Prop} {x : β}
    (h : EquivAt s sound x) (hx : good (build x)) (hsound : ∀ {y}, good (build y) → sound y)
    (hshape : ∀ {y b}, r (build y) b ∨ r b (build y) → ∃ z, b = build z)
    (hparts : ∀ {y z}, r (build y) (build z) → s y z)
    (hbuilt : ∀ {y z}, good (build z) → y = x ∨ (sound y ∧ s y x) → s y z →
      r (build y) (build z)) :
    EquivAt r good (build x) := by
  refine ⟨fun {b} hb => ⟨fun hxb => ?_, fun hbx => ?_⟩, fun {b c} hb hc hxb hbc => ?_,
    fun {b c} hb hc hbx hxc => ?_⟩
  · obtain ⟨y, rfl⟩ := hshape (.inl hxb)
    have hyx := (h.symm (hsound hb)).mp (hparts hxb)
    exact hbuilt hx (.inr ⟨hsound hb, hyx⟩) hyx
  · obtain ⟨y, rfl⟩ := hshape (.inr hbx)
    exact hbuilt hb (.inl rfl) ((h.symm (hsound hb)).mpr (hparts hbx))
  · obtain ⟨y, rfl⟩ := hshape (.inl hxb)
    obtain ⟨z, rfl⟩ := hshape (.inl hbc)
    exact hbuilt hc (.inl rfl) (h.first (hsound hb) (hsound hc) (hparts hxb) (hparts hbc))
  · obtain ⟨y, rfl⟩ := hshape (.inr hbx)
    obtain ⟨z, rfl⟩ := hshape (.inl hxc)
    exact hbuilt hc (.inr ⟨hsound hb, hparts hbx⟩)
      (h.between (hsound hb) (hsound hc) (hparts hbx) (hparts hxc))

/-- The same where built things are related exactly when their parts are. -/
theorem EquivAt.of_iff {β : Type} (build : β → α) {s : β → β → Prop} {sound : β → Prop} {x : β}
    (h : EquivAt s sound x) (hx : good (build x)) (hsound : ∀ {y}, good (build y) → sound y)
    (hshape : ∀ {y b}, r (build y) b ∨ r b (build y) → ∃ z, b = build z)
    (hiff : ∀ {y z}, r (build y) (build z) ↔ s y z) : EquivAt r good (build x) :=
  .of_view build h hx hsound hshape hiff.mp fun _ _ => hiff.mpr

/-- Elements that are compared by a key are compared to nothing but elements with that key. -/
theorem EquivAt.of_key {γ : Type} {key : α → Option γ} {a : α} {k : γ} (ha : key a = some k)
    (hleft : ∀ {a b k}, key a = some k → (r a b ↔ key b = some k))
    (hright : ∀ {a b k}, key b = some k → (r a b ↔ key a = some k)) : EquivAt r good a where
  symm _ := by rw [hleft ha, hright ha]
  first _ _ hab hbc := (hleft ha).mpr ((hleft ((hleft ha).mp hab)).mp hbc)
  between _ _ hba hac := (hleft ((hright ha).mp hba)).mpr ((hleft ha).mp hac)

/-! ## Covers -/

/-- There are as many members on both sides, and each on the left has a partner on the right. -/
structure Covers (r : α → α → Prop) (as bs : List α) : Prop where
  length : as.length = bs.length
  partner : ∀ a ∈ as, ∃ b ∈ bs, r a b

namespace Covers

variable {as bs cs : List α}

/-- When no two members share a partner, the partners use up a list that is not longer. -/
theorem exists_of_distinct (hlength : bs.length ≤ as.length)
    (hpartner : ∀ a ∈ as, ∃ b ∈ bs, r a b)
    (hdistinct : as.Pairwise fun a a' => ∀ b ∈ bs, r a b → ¬ r a' b) :
    ∀ b ∈ bs, ∃ a ∈ as, r a b := by
  -- by induction on the left, taking the partner of the first member out of the right
  induction as generalizing bs with
  | nil =>
    obtain rfl := List.length_eq_zero_iff.mp (Nat.le_zero.mp hlength)
    simp
  | cons a as ih =>
    obtain ⟨b, hb, hab⟩ := hpartner a (by simp)
    obtain ⟨before, after, rfl⟩ := List.append_of_mem hb
    obtain ⟨hhead, htail⟩ := List.pairwise_cons.mp hdistinct
    have hmem : ∀ b', b' ∈ before ++ b :: after ↔ b' = b ∨ b' ∈ before ++ after := by
      intro b'
      simp only [List.mem_append, List.mem_cons]
      tauto
    have hothers : ∀ a' ∈ as, ∃ b' ∈ before ++ after, r a' b' := by
      intro a' ha'
      obtain ⟨b', hb', hr⟩ := hpartner a' (by simp [ha'])
      rcases (hmem b').mp hb' with rfl | hb'
      · exact absurd hr (hhead a' ha' b' hb hab)
      · exact ⟨b', hb', hr⟩
    have hsmaller : (before ++ after).length ≤ as.length := by
      simp only [List.length_append, List.length_cons] at hlength ⊢
      omega
    have hrest := ih hsmaller hothers (htail.imp fun h b' hb' => h b' ((hmem b').mpr (.inr hb')))
    intro b' hb'
    rcases (hmem b').mp hb' with rfl | hb'
    · exact ⟨a, by simp, hab⟩
    · obtain ⟨a', ha', hr⟩ := hrest b' hb'
      exact ⟨a', by simp [ha'], hr⟩

/-- Partners of partners. -/
theorem comp (h : Covers r as bs) (h' : Covers r bs cs)
    (hcomp : ∀ a ∈ as, ∀ b ∈ bs, ∀ c ∈ cs, r a b → r b c → r a c) : Covers r as cs where
  length := h.length.trans h'.length
  partner a ha := by
    obtain ⟨b, hb, hr⟩ := h.partner a ha
    obtain ⟨c, hc, hs⟩ := h'.partner b hb
    exact ⟨c, hc, hcomp a ha b hb c hc hr hs⟩

end Covers

/-- Good members, no later one of which is related to an earlier one. -/
def Separate (r : α → α → Prop) (good : α → Prop) (as : List α) : Prop :=
  (∀ a ∈ as, good a) ∧ as.Pairwise fun earlier later => ¬ r later earlier

/-- Lists that are related by a cover, in whatever order. -/
theorem EquivAt.covers {as : List α} (h : ∀ a ∈ as, EquivAt r good a) (has : Separate r good as) :
    EquivAt (Covers r) (Separate r good) as where
  symm {bs} hbs := by
    constructor
    · intro hab
      refine ⟨hab.length.symm, fun b hb => ?_⟩
      have hdistinct : as.Pairwise fun a a' => ∀ b ∈ bs, r a b → ¬ r a' b :=
        has.2.imp_of_mem fun {a a'} ha ha' hne b hb hr hr' =>
          hne ((h a' ha').first (hbs.1 b hb) (has.1 a ha) hr' (((h a ha).symm (hbs.1 b hb)).mp hr))
      obtain ⟨a, ha, hr⟩ :=
        Covers.exists_of_distinct (Nat.le_of_eq hab.length.symm) hab.partner hdistinct b hb
      exact ⟨a, ha, ((h a ha).symm (hbs.1 b hb)).mp hr⟩
    · intro hba
      refine ⟨hba.length.symm, fun a ha => ?_⟩
      have hdistinct : bs.Pairwise fun b b' => ∀ a ∈ as, r b a → ¬ r b' a :=
        hbs.2.imp_of_mem fun {b b'} hb hb' hne a ha hr hr' =>
          hne ((h a ha).between (hbs.1 b' hb') (hbs.1 b hb) hr'
            (((h a ha).symm (hbs.1 b hb)).mpr hr))
      obtain ⟨b, hb, hr⟩ :=
        Covers.exists_of_distinct (Nat.le_of_eq hba.length.symm) hba.partner hdistinct a ha
      exact ⟨b, hb, ((h a ha).symm (hbs.1 b hb)).mpr hr⟩
  first hbs hcs hab hbc := hab.comp hbc fun a ha b hb c hc =>
    (h a ha).first (hbs.1 b hb) (hcs.1 c hc)
  between hbs hcs hba hac := hba.comp hac fun b hb a ha c hc =>
    (h a ha).between (hbs.1 b hb) (hcs.1 c hc)

/-! ## Maps

Maps are compared by looking the keys of one up in the other. Their keys differ, so that what is the
same as a key is one entry only and looking the key up finds the partner. -/

section Maps

variable {β : Type} {same : α → α → Bool} {s : β → β → Prop} {sound : β → Prop}
  {entries as bs : List (α × β)}

/-- Two maps have one size, and every key of the first is found in the second, with a value that is
related. -/
structure SameMap (same : α → α → Bool) (s : β → β → Prop) (as bs : List (α × β)) : Prop where
  length : as.length = bs.length
  found : ∀ a ∈ as, ∃ b, bs.find? (fun e => same a.1 e.1) = some b ∧ s a.2 b.2

/-- Entries with the same key and with related values. -/
def SameEntry (same : α → α → Bool) (s : β → β → Prop) (a b : α × β) : Prop :=
  same a.1 b.1 = true ∧ s a.2 b.2

/-- A map of good keys that differ, and of sound values. -/
def SoundMap (same : α → α → Bool) (good : α → Prop) (sound : β → Prop) (entries : List (α × β)) :
    Prop :=
  (∀ e ∈ entries, good e.1 ∧ sound e.2) ∧ Assoc.KeysDiffer same entries

/-- Two entries with keys that are the same as each other are one entry. -/
theorem Assoc.KeysDiffer.eq_of_same {e e' : α × β} (hdiffer : KeysDiffer same entries)
    (he : e ∈ entries) (he' : e' ∈ entries) (h : same e.1 e'.1 = true)
    (h' : same e'.1 e.1 = true) : e = e' := by
  by_contra hne
  have hapart : entries.Pairwise fun e e' => ¬ (same e.1 e'.1 = true ∧ same e'.1 e.1 = true) :=
    hdiffer.imp fun h hboth => by simp [h] at hboth
  have : Std.Symm fun e e' : α × β => ¬ (same e.1 e'.1 = true ∧ same e'.1 e.1 = true) :=
    ⟨fun _ _ h hboth => h hboth.symm⟩
  exact hapart.forall he he' hne ⟨h, h'⟩

theorem SoundMap.separate (h : SoundMap same good sound entries) :
    Separate (SameEntry same s) (fun e => good e.1 ∧ sound e.2) entries := by
  refine ⟨h.1, h.2.imp fun {a b} hne hsame => ?_⟩
  have hkey : same b.1 a.1 = true := hsame.1
  rw [hne] at hkey
  cases hkey

theorem SameMap.covers (h : SameMap same s as bs) : Covers (SameEntry same s) as bs := by
  refine ⟨h.length, fun a ha => ?_⟩
  obtain ⟨b, hfind, hvalue⟩ := h.found a ha
  exact ⟨b, List.mem_of_find?_eq_some hfind, by simpa using List.find?_some hfind, hvalue⟩

/-- A cover of entries compares the maps, if what is the same as a key of the first is one key of
the second. -/
theorem Covers.sameMap (h : Covers (SameEntry same s) as bs) (hdiffer : Assoc.KeysDiffer same bs)
    (hone : ∀ a ∈ as, ∀ b ∈ bs, ∀ b' ∈ bs, same a.1 b.1 = true → same a.1 b'.1 = true →
      same b.1 b'.1 = true) : SameMap same s as bs := by
  refine ⟨h.length, fun a ha => ?_⟩
  obtain ⟨b, hb, hkey, hvalue⟩ := h.partner a ha
  cases hfind : bs.find? fun e => same a.1 e.1 with
  | none => exact absurd hkey (List.find?_eq_none.mp hfind b hb)
  | some b' =>
    have hb' := List.mem_of_find?_eq_some hfind
    have hkey' : same a.1 b'.1 = true := by simpa using List.find?_some hfind
    obtain rfl : b = b' := hdiffer.eq_of_same hb hb' (hone a ha b hb b' hb' hkey hkey')
      (hone a ha b' hb' b hb hkey' hkey)
    exact ⟨b, rfl, hvalue⟩

theorem EquivAt.entry {e : α × β} (hkey : EquivAt (fun a b => same a b = true) good e.1)
    (hvalue : EquivAt s sound e.2) :
    EquivAt (SameEntry same s) (fun e => good e.1 ∧ sound e.2) e :=
  hkey.prod hvalue

/-- Maps whose keys are looked up in each other. -/
theorem EquivAt.maps (hkeys : ∀ e ∈ entries, EquivAt (fun a b => same a b = true) good e.1)
    (hvalues : ∀ e ∈ entries, EquivAt s sound e.2) (h : SoundMap same good sound entries) :
    EquivAt (SameMap same s) (SoundMap same good sound) entries := by
  refine .of_view id (.covers (fun e he => .entry (hkeys e he) (hvalues e he)) h.separate) h
    (fun h => h.separate) (fun {_ b} _ => ⟨b, rfl⟩) SameMap.covers (fun {y z} hz hy hyz => ?_)
  refine hyz.sameMap hz.2 fun a ha b hb b' hb' hab hab' => ?_
  have hgood : ∀ e ∈ z, good e.1 := fun e he => (hz.1 e he).1
  rcases hy with rfl | ⟨hy, hyx⟩
  · exact (hkeys a ha).euclidean (hgood b hb) (hgood b' hb') hab hab'
  · -- the key has a neighbour among the keys of the map that the claim is about
    obtain ⟨c, hc, hac, -⟩ := hyx.partner a ha
    exact (hkeys c hc).euclidean_of_neighbour (hy.1 a ha).1 (hgood b hb) (hgood b' hb') hac hab hab'

end Maps

/-! ## Equivalences -/

/-- A test is an equivalence among good elements. -/
structure EquivOn (same : α → α → Bool) (good : α → Prop) : Prop where
  refl : ∀ {a}, good a → same a a = true
  symm : ∀ {a b}, good a → good b → same a b = true → same b a = true
  trans : ∀ {a b c}, good a → good b → good c → same a b = true → same b c = true →
    same a c = true

namespace EquivOn

variable {same : α → α → Bool}

theorem of_equivAt (hrefl : ∀ {a}, good a → same a a = true)
    (h : ∀ {a}, good a → EquivAt (fun a b => same a b = true) good a) : EquivOn same good where
  refl := hrefl
  symm ha hb := ((h ha).symm hb).mp
  trans ha hb hc := (h ha).first hb hc

/-- Lawful tests for equality are equivalences. -/
theorem beq [BEq α] [EquivBEq α] : EquivOn (fun a b : α => a == b) fun _ => True where
  refl _ := BEq.rfl
  symm _ _ := BEq.symm
  trans _ _ _ := BEq.trans

theorem equivAt (h : EquivOn same good) {a : α} (ha : good a) :
    EquivAt (fun a b => same a b = true) good a where
  symm hb := ⟨h.symm ha hb, h.symm hb ha⟩
  first hb hc := h.trans ha hb hc
  between hb hc := h.trans hb ha hc

/-- As a relation on the good elements. -/
theorem equivalence (h : EquivOn same good) :
    Equivalence fun a b : { a // good a } => same a.1 b.1 = true where
  refl a := h.refl a.2
  symm {a b} := h.symm a.2 b.2
  trans {a b c} := h.trans a.2 b.2 c.2

theorem comm (h : EquivOn same good) {a b : α} (ha : good a) (hb : good b) :
    same a b = same b a :=
  Bool.eq_iff_iff.mpr ⟨h.symm ha hb, h.symm hb ha⟩

/-- What is the same cannot be told apart by comparing it with anything. -/
theorem congr_left (h : EquivOn same good) {a b c : α} (ha : good a) (hb : good b) (hc : good c)
    (hab : same a b = true) : same a c = same b c :=
  Bool.eq_iff_iff.mpr ⟨h.trans hb ha hc (h.symm ha hb hab), h.trans ha hb hc hab⟩

end EquivOn

end ScriptBridge
