import ScriptBridge.Assoc
import ScriptBridge.Proofs.Outcome
import Mathlib.Data.List.Forall2

/-!
# Loops over members

A function on trees goes through the members of a container in a loop of its own, since the two call
each other. What such a loop amounts to depends on its equations alone, so that it is said here once
for all of them.

- `eq_map_of_cons`: a loop that makes one thing of each member is a map.
- `all_eq_true_iff`, `each_eq_true_iff`: loops that test members, or pairs of members.
- `eq_compareLex_of_cons`: a loop that compares members until two of them differ.
- `traverse_eq_ok`: a loop that may fail at each member. `items_eq_ok` and `entries_eq_ok` are the
  cases of items that are counted and of entries, each key before its value.
- `exists_mem_of_eq_error`: a loop that fails does so at a member.
- `exists_split_cons`: the members before the one at which a loop fails, from the front.
- `store_eq_ok`: a loop that stores a pair for each member.
-/

namespace ScriptBridge

variable {ε σ α β γ δ : Type}

/-! ## Loops that cannot fail -/

theorem eq_map_of_cons (loop : List α → List β) {f : α → β} (hnil : loop [] = [])
    (hcons : ∀ a rest, loop (a :: rest) = f a :: loop rest) {as : List α} :
    loop as = as.map f := by
  induction as with
  | nil => exact hnil
  | cons a rest ih => rw [hcons, ih, List.map_cons]

theorem all_eq_true_iff (loop : List α → Bool) {p : α → Bool} (hnil : loop [] = true)
    (hcons : ∀ a rest, loop (a :: rest) = (p a && loop rest)) {as : List α} :
    loop as = true ↔ ∀ a ∈ as, p a = true := by
  induction as with
  | nil => simp [hnil]
  | cons a rest ih => rw [hcons, Bool.and_eq_true, ih, List.forall_mem_cons]

/-- Lists of different lengths fail the test. -/
theorem each_eq_true_iff (loop : List α → List β → Bool) {r : α → β → Prop}
    (hnil : loop [] [] = true) (hshort : ∀ b bs, loop [] (b :: bs) = false)
    (hlong : ∀ a as, loop (a :: as) [] = false)
    (hcons : ∀ a as b bs, loop (a :: as) (b :: bs) = true ↔ r a b ∧ loop as bs = true)
    {as : List α} {bs : List β} : loop as bs = true ↔ List.Forall₂ r as bs := by
  induction as generalizing bs with
  | nil =>
    cases bs with
    | nil => simp [hnil]
    | cons b bs => simp [hshort]
  | cons a as ih =>
    cases bs with
    | nil => simp [hlong]
    | cons b bs => rw [hcons, ih, List.forall₂_cons]

theorem eq_compareLex_of_cons (loop : List α → List α → Ordering) {cmp : α → α → Ordering}
    (hnil : loop [] [] = .eq) (hshort : ∀ b bs, loop [] (b :: bs) = .lt)
    (hlong : ∀ a as, loop (a :: as) [] = .gt)
    (hcons : ∀ a as b bs, loop (a :: as) (b :: bs) = (cmp a b).then (loop as bs))
    {as bs : List α} : loop as bs = List.compareLex cmp as bs := by
  induction as generalizing bs with
  | nil =>
    cases bs with
    | nil => exact hnil
    | cons b bs => exact hshort b bs
  | cons a as ih =>
    cases bs with
    | nil => exact hlong a as
    | cons b bs => rw [hcons, ih, List.compareLex_cons_cons]

/-! ## Loops that may fail -/

/-- Each member has a partner, whatever is handed on from one member to the next. -/
theorem traverse_eq_ok (loop : List α → σ → Except ε (List β)) (next : σ → σ) {r : α → β → Prop}
    (hnil : ∀ s, loop [] s = .ok [])
    (hcons : ∀ a rest s bs, loop (a :: rest) s = .ok bs ↔
      ∃ b, r a b ∧ ∃ bs', loop rest (next s) = .ok bs' ∧ b :: bs' = bs)
    {as : List α} {s : σ} {bs : List β} : loop as s = .ok bs ↔ List.Forall₂ r as bs := by
  induction as generalizing s bs with
  | nil => rw [hnil, Except.ok.injEq, List.forall₂_nil_left_iff, eq_comm]
  | cons a rest ih =>
    rw [hcons, List.forall₂_cons_left_iff]
    simp only [ih]
    constructor
    · rintro ⟨b, hb, bs', hbs, rfl⟩
      exact ⟨b, bs', hb, hbs, rfl⟩
    · rintro ⟨b, bs', hb, hbs, rfl⟩
      exact ⟨b, hb, bs', hbs, rfl⟩

/-- Items are converted when each item is. -/
theorem items_eq_ok (loop : List α → Nat → Except ConvertError (List β))
    {convert : α → Except ConvertError β} {place : Nat → Place}
    (hnil : ∀ index, loop [] index = .ok [])
    (hcons : ∀ a rest index, loop (a :: rest) index = (do
      let b ← ConvertError.locate (place index) (convert a)
      let bs ← loop rest (index + 1)
      return b :: bs))
    {as : List α} {index : Nat} {bs : List β} :
    loop as index = .ok bs ↔ List.Forall₂ (fun a b => convert a = .ok b) as bs :=
  traverse_eq_ok loop (· + 1) hnil fun a rest index bs => by
    simp only [hcons, bind_eq_ok, ConvertError.locate_eq_ok, pure_eq_ok]

/-- Entries are converted when each key and each value is. -/
theorem entries_eq_ok (loop : List (α × β) → Except ε (List (γ × δ))) {first : α → Except ε γ}
    {second : α → γ → β → Except ε δ} {r : α × β → γ × δ → Prop}
    (hnil : loop [] = .ok [])
    (hcons : ∀ a b rest, loop ((a, b) :: rest) = (do
      let x ← first a
      let y ← second a x b
      let entries ← loop rest
      return (x, y) :: entries))
    (hentry : ∀ a b x y, first a = .ok x ∧ second a x b = .ok y ↔ r (a, b) (x, y))
    {pairs : List (α × β)} {entries : List (γ × δ)} :
    loop pairs = .ok entries ↔ List.Forall₂ r pairs entries := by
  refine traverse_eq_ok (fun pairs (_ : Unit) => loop pairs) id (s := ()) (fun _ => hnil) ?_
  rintro ⟨a, b⟩ rest - out
  simp only [hcons, bind_eq_ok, pure_eq_ok, Prod.exists, ← hentry, and_assoc, exists_and_left]

theorem exists_mem_of_eq_error (loop : List α → σ → Except ε β) {p : α → Prop} {e : ε}
    (hnil : ∀ s, loop [] s ≠ .error e)
    (hcons : ∀ a rest s, loop (a :: rest) s = .error e → p a ∨ ∃ s', loop rest s' = .error e)
    {as : List α} {s : σ} (h : loop as s = .error e) : ∃ a ∈ as, p a := by
  induction as generalizing s with
  | nil => exact absurd h (hnil s)
  | cons a rest ih =>
    rcases hcons a rest s h with ha | ⟨s', hrest⟩
    · exact ⟨a, by simp, ha⟩
    · obtain ⟨b, hb, hfails⟩ := ih hrest
      exact ⟨b, by simp [hb], hfails⟩

/-- A list is split at its first member or after it, as it is where a loop fails. -/
theorem exists_split_cons {p : List α → α → List α → Prop} {a : α} {rest : List α} :
    (∃ before b after, a :: rest = before ++ b :: after ∧ p before b after) ↔
      p [] a rest ∨ ∃ before b after, rest = before ++ b :: after ∧ p (a :: before) b after := by
  constructor
  · rintro ⟨before, b, after, hsplit, h⟩
    cases before with
    | nil =>
      obtain ⟨rfl, rfl⟩ := List.cons.inj hsplit
      exact .inl h
    | cons c before =>
      obtain ⟨rfl, hrest⟩ := List.cons.inj hsplit
      exact .inr ⟨before, b, after, hrest, h⟩
  · rintro (h | ⟨before, b, after, rfl, h⟩)
    · exact ⟨[], a, rest, rfl, h⟩
    · exact ⟨a :: before, b, after, rfl, h⟩

/-! ## Loops that store -/

/-- Members are stored when each stands for a pair and all keys are accepted. -/
theorem store_eq_ok {κ : Type} (loop : List α → List (κ × β) → Except ε (List (κ × β)))
    {same : κ → κ → Bool} {accepts : κ → Bool} {r : α → κ × β → Prop}
    (hnil : ∀ stored, loop [] stored = .ok stored)
    (hcons : ∀ a rest stored out, loop (a :: rest) stored = .ok out ↔
      ∃ p, r a p ∧ accepts p.1 = true ∧ loop rest (Assoc.put same stored p.1 p.2) = .ok out)
    {as : List α} {stored out : List (κ × β)} :
    loop as stored = .ok out ↔ ∃ pairs, List.Forall₂ r as pairs ∧
      (∀ p ∈ pairs, accepts p.1 = true) ∧ out = Assoc.putAll same stored pairs := by
  induction as generalizing stored with
  | nil =>
    rw [hnil, Except.ok.injEq, eq_comm]
    simp [Assoc.putAll]
  | cons a rest ih =>
    rw [hcons]
    constructor
    · rintro ⟨p, hp, haccepts, hrest⟩
      obtain ⟨pairs, hpairs, hall, rfl⟩ := ih.mp hrest
      exact ⟨p :: pairs, .cons hp hpairs, List.forall_mem_cons.mpr ⟨haccepts, hall⟩, rfl⟩
    · rintro ⟨_, hpairs, hall, rfl⟩
      cases hpairs with
      | cons hp hrest =>
        obtain ⟨haccepts, hall⟩ := List.forall_mem_cons.mp hall
        exact ⟨_, hp, haccepts, ih.mpr ⟨_, hrest, hall, rfl⟩⟩

end ScriptBridge
