import Mathlib.Data.List.Forall2

/-!
# Lists in parallel

Converting a container relates its members, one by one, to the members of the result. What is known
of the members on one side carries over to the other.

- `forall₂_imp_of_mem`, `forall₂_iff_of_mem`: change the relation, member by member.
- `forall₂_exists_right`, `forall₂_exists_left`: the partner of a member.
- `forall₂_getElem?`, `forall₂_getElem?_left`, `forall₂_of_getElem?`: by index.
- `forall₂_transport`, `forall₂_comp`: a third list, member by member.
- `forall₂_congr`: relating both lists to others alike.
- `map_eq_map_of_forall₂`: images that agree on partners.
- `forall₂_exists_iff`: a list of partners, from a partner for each member.
- `forall₂_exists_triangle_iff`: two lists of partners, which are partners of each other.
- `forall₂_find?`: searching both lists alike.
- `forall₂_pairwise`: what holds of any two members carries over to their partners.
- `compareLex_eq_eq_iff`, `compareLex_swap`, `compareLex_map`: comparing lists by the first
  difference, with what is known of comparisons of members.
-/

namespace ScriptBridge

variable {α β : Type} {r s : α → β → Prop} {as : List α} {bs : List β}

/-- Another relation between the same lists, when it follows for the members there are. -/
theorem forall₂_imp_of_mem (h : List.Forall₂ r as bs)
    (himp : ∀ a ∈ as, ∀ b ∈ bs, r a b → s a b) : List.Forall₂ s as bs := by
  induction h with
  | nil => exact .nil
  | @cons a b as bs hab _ ih =>
    have htail : ∀ a ∈ as, ∀ b ∈ bs, r a b → s a b := fun a ha b hb =>
      himp a (by simp [ha]) b (by simp [hb])
    exact .cons (himp a (by simp) b (by simp) hab) (ih htail)

theorem forall₂_iff_of_mem (h : ∀ a ∈ as, ∀ b ∈ bs, (r a b ↔ s a b)) :
    List.Forall₂ r as bs ↔ List.Forall₂ s as bs :=
  ⟨fun hr => forall₂_imp_of_mem hr fun a ha b hb => (h a ha b hb).mp,
    fun hs => forall₂_imp_of_mem hs fun a ha b hb => (h a ha b hb).mpr⟩

/-- Every member on the right has a partner on the left. -/
theorem forall₂_exists_left (h : List.Forall₂ r as bs) : ∀ b ∈ bs, ∃ a ∈ as, r a b := by
  induction h with
  | nil => simp
  | @cons a b as bs hab _ ih =>
    intro b' hb'
    rcases List.mem_cons.mp hb' with rfl | hb'
    · exact ⟨a, by simp, hab⟩
    · obtain ⟨a', ha', hr⟩ := ih b' hb'
      exact ⟨a', by simp [ha'], hr⟩

/-- Every member on the left has a partner on the right. -/
theorem forall₂_exists_right (h : List.Forall₂ r as bs) : ∀ a ∈ as, ∃ b ∈ bs, r a b :=
  fun a ha => forall₂_exists_left (r := fun b a => r a b) h.flip a ha

/-- The members at one index are partners, or both lists end before it. -/
theorem forall₂_getElem? (h : List.Forall₂ r as bs) (i : Nat) : Option.Rel r as[i]? bs[i]? := by
  induction h generalizing i with
  | nil => exact .none
  | cons hab _ ih =>
    cases i with
    | zero => exact .some hab
    | succ i => exact ih i

/-- The member at an index on the right has its partner at that index on the left. -/
theorem forall₂_getElem?_left (h : List.Forall₂ r as bs) {i : Nat} {b : β} (hb : bs[i]? = some b) :
    ∃ a, as[i]? = some a ∧ r a b := by
  have hrel := forall₂_getElem? h i
  rw [hb] at hrel
  generalize as[i]? = a at hrel
  cases hrel with
  | some hab => exact ⟨_, rfl, hab⟩

/-- Lists of one length are in a relation when their members at each index are. -/
theorem forall₂_of_getElem? (hlength : as.length = bs.length)
    (h : ∀ (i : Nat) (a : α) (b : β), as[i]? = some a → bs[i]? = some b → r a b) :
    List.Forall₂ r as bs := by
  induction as generalizing bs with
  | nil =>
    obtain rfl := List.length_eq_zero_iff.mp hlength.symm
    exact .nil
  | cons a as ih =>
    cases bs with
    | nil => cases hlength
    | cons b bs =>
      have htail : ∀ (i : Nat) (a : α) (b : β), as[i]? = some a → bs[i]? = some b → r a b :=
        fun i a b ha hb => h (i + 1) a b ha hb
      exact .cons (h 0 a b rfl rfl) (ih (Nat.succ.inj hlength) htail)

/-- Where each member of a third list can be found from the members of the first two, the third list
can be. -/
theorem forall₂_transport {γ : Type} {s : α → γ → Prop} {q : β → γ → Prop}
    (h : List.Forall₂ r as bs) (hex : ∀ a ∈ as, ∀ b ∈ bs, r a b → ∃ c, s a c ∧ q b c) :
    ∃ cs, List.Forall₂ s as cs ∧ List.Forall₂ q bs cs := by
  induction h with
  | nil => exact ⟨[], .nil, .nil⟩
  | @cons a b as bs hab _ ih =>
    obtain ⟨c, hs, hq⟩ := hex a (by simp) b (by simp) hab
    obtain ⟨cs, hss, hqs⟩ := ih fun a ha b hb => hex a (by simp [ha]) b (by simp [hb])
    exact ⟨c :: cs, .cons hs hss, .cons hq hqs⟩

/-- Partners of partners. -/
theorem forall₂_comp {γ : Type} {s : β → γ → Prop} {cs : List γ} (h : List.Forall₂ r as bs)
    (h' : List.Forall₂ s bs cs) : List.Forall₂ (fun a c => ∃ b, r a b ∧ s b c) as cs := by
  induction h generalizing cs with
  | nil =>
    cases h'
    exact .nil
  | cons hab _ ih =>
    cases h' with
    | cons hbc hbcs => exact .cons ⟨_, hab, hbc⟩ (ih hbcs)

/-- Relations that agree on partners relate the lists on the left exactly when they relate those on
the right. -/
theorem forall₂_congr {γ δ : Type} {r' : γ → δ → Prop} {p : α → γ → Prop} {q : β → δ → Prop}
    {cs : List γ} {ds : List δ} (h : List.Forall₂ r as bs) (h' : List.Forall₂ r' cs ds)
    (hpq : ∀ a ∈ as, ∀ c ∈ cs, ∀ b d, r a b → r' c d → (p a c ↔ q b d)) :
    List.Forall₂ p as cs ↔ List.Forall₂ q bs ds := by
  induction h generalizing cs ds with
  | nil => cases h' <;> simp
  | cons hab _ ih =>
    cases h' with
    | nil => simp
    | cons hcd hcds =>
      rw [List.forall₂_cons, List.forall₂_cons, hpq _ (by simp) _ (by simp) _ _ hab hcd,
        ih hcds fun a ha c hc => hpq a (by simp [ha]) c (by simp [hc])]

/-- Images that agree on partners. -/
theorem map_eq_map_of_forall₂ {γ : Type} {f : α → γ} {g : β → γ}
    (h : List.Forall₂ (fun a b => f a = g b) as bs) : as.map f = bs.map g := by
  rw [← List.forall₂_eq_eq_eq, List.forall₂_map_left_iff, List.forall₂_map_right_iff]
  exact h

/-- Every member on the left can have a partner exactly when there is a list of partners. -/
theorem forall₂_exists_iff : (∃ bs, List.Forall₂ r as bs) ↔ ∀ a ∈ as, ∃ b, r a b := by
  induction as with
  | nil => exact ⟨fun _ => by simp, fun _ => ⟨[], .nil⟩⟩
  | cons a as ih =>
    rw [List.forall_mem_cons, ← ih]
    constructor
    · rintro ⟨_, h⟩
      cases h with
      | cons hab htail => exact ⟨⟨_, hab⟩, _, htail⟩
    · rintro ⟨⟨b, hab⟩, bs, htail⟩
      exact ⟨b :: bs, .cons hab htail⟩

/-- Every member on the left can have two partners that are partners of each other exactly when there
are two such lists of partners. -/
theorem forall₂_exists_triangle_iff {γ : Type} {s : α → γ → Prop} {q : β → γ → Prop} :
    (∃ bs cs, List.Forall₂ r as bs ∧ List.Forall₂ s as cs ∧ List.Forall₂ q bs cs) ↔
      ∀ a ∈ as, ∃ b c, r a b ∧ s a c ∧ q b c := by
  induction as with
  | nil => exact ⟨fun _ => by simp, fun _ => ⟨[], [], .nil, .nil, .nil⟩⟩
  | cons a as ih =>
    rw [List.forall_mem_cons, ← ih]
    constructor
    · rintro ⟨_, _, hr, hs, hq⟩
      cases hr with
      | cons hab hr =>
        cases hs with
        | cons hac hs =>
          cases hq with
          | cons hbc hq => exact ⟨⟨_, _, hab, hac, hbc⟩, _, _, hr, hs, hq⟩
    · rintro ⟨⟨b, c, hab, hac, hbc⟩, bs, cs, hr, hs, hq⟩
      exact ⟨b :: bs, c :: cs, .cons hab hr, .cons hac hs, .cons hbc hq⟩

/-- Searching both lists, with tests that agree on partners, finds partners or nothing. -/
theorem forall₂_find? {p : α → Bool} {q : β → Bool} (h : List.Forall₂ r as bs)
    (hpq : ∀ a ∈ as, ∀ b ∈ bs, r a b → p a = q b) :
    (as.find? p = none ∧ bs.find? q = none) ∨
      ∃ a b, as.find? p = some a ∧ bs.find? q = some b ∧ r a b := by
  induction h with
  | nil => exact .inl ⟨rfl, rfl⟩
  | @cons a b as bs hab _ ih =>
    have hhead : p a = q b := hpq a (by simp) b (by simp) hab
    rw [List.find?_cons, List.find?_cons, hhead]
    cases q b with
    | true => exact .inr ⟨a, b, rfl, rfl, hab⟩
    | false => exact ih fun a ha b hb => hpq a (by simp [ha]) b (by simp [hb])

/-- What holds of any two members on the left, the earlier first, and so of their partners, holds of
any two members on the right. -/
theorem forall₂_pairwise {p : α → α → Prop} {q : β → β → Prop} (h : List.Forall₂ r as bs)
    (hp : as.Pairwise p)
    (himp : ∀ a ∈ as, ∀ b ∈ bs, ∀ a' ∈ as, ∀ b' ∈ bs, r a b → r a' b' → p a a' → q b b') :
    bs.Pairwise q := by
  induction h with
  | nil => exact .nil
  | @cons a b as bs hab htail ih =>
    obtain ⟨hhead, hp⟩ := List.pairwise_cons.mp hp
    refine List.pairwise_cons.mpr ⟨fun b' hb' => ?_, ih hp ?_⟩
    · obtain ⟨a', ha', hr⟩ := forall₂_exists_left htail b' hb'
      exact himp a (by simp) b (by simp) a' (by simp [ha']) b' (by simp [hb']) hab hr (hhead a' ha')
    · intro a ha b hb a' ha' b' hb'
      exact himp a (by simp [ha]) b (by simp [hb]) a' (by simp [ha']) b' (by simp [hb'])

/-! ## Lexicographic comparison

The laws of `List.compareLex` in the library ask for a comparison that is lawful everywhere. Where a
comparison of trees is what compares the members, the laws are known of the members alone. -/

variable {cmp : α → α → Ordering}

/-- Lists are not told apart when their members are not. -/
theorem compareLex_eq_eq_iff {as bs : List α} :
    List.compareLex cmp as bs = .eq ↔ List.Forall₂ (fun a b => cmp a b = .eq) as bs := by
  induction as generalizing bs with
  | nil => cases bs <;> simp [List.compareLex]
  | cons a as ih =>
    cases bs with
    | nil => simp [List.compareLex]
    | cons b bs => rw [List.compareLex_cons_cons, Ordering.then_eq_eq, ih, List.forall₂_cons]

theorem compareLex_swap {as bs : List α} (h : ∀ a ∈ as, ∀ b ∈ bs, cmp b a = (cmp a b).swap) :
    List.compareLex cmp bs as = (List.compareLex cmp as bs).swap := by
  induction as generalizing bs with
  | nil => cases bs <;> rfl
  | cons a as ih =>
    cases bs with
    | nil => rfl
    | cons b bs =>
      rw [List.compareLex_cons_cons, List.compareLex_cons_cons, h a (by simp) b (by simp),
        ih fun a ha b hb => h a (by simp [ha]) b (by simp [hb]), Ordering.swap_then]

/-- A comparison that does not see what is done to members does not see it in lists. -/
theorem compareLex_map {as bs : List α} {f : α → α}
    (h : ∀ a ∈ as, ∀ b ∈ bs, cmp (f a) (f b) = cmp a b) :
    List.compareLex cmp (as.map f) (bs.map f) = List.compareLex cmp as bs := by
  induction as generalizing bs with
  | nil => cases bs <;> rfl
  | cons a as ih =>
    cases bs with
    | nil => rfl
    | cons b bs =>
      rw [List.map_cons, List.map_cons, List.compareLex_cons_cons, List.compareLex_cons_cons,
        h a (by simp) b (by simp), ih fun a ha b hb => h a (by simp [ha]) b (by simp [hb])]

end ScriptBridge
