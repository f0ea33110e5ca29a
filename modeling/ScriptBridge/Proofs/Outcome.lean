import ScriptBridge.ConvertError

/-!
# Outcomes of partial steps

Conversions are chains of steps that may fail. These lemmas take a chain apart into its steps, so
that later proofs never open the chaining itself.

- `bind_eq_ok`: a chain succeeds exactly when each of its steps does.
- `locate_eq_ok`, `lift_eq_ok`: naming the place of a failure, or passing a refusal on, changes no
  success.
- `bind_eq_error`, `bind_pure_eq_error`: a chain fails as the first of its steps that fails.
- `locate_eq_error`, `root_of_locate_eq_error`: naming the place of a failure adds it to the error,
  and does not change the root.
-/

namespace ScriptBridge

variable {ε α β : Type}

/-- A chain of two steps succeeds exactly when both do. -/
@[simp] theorem bind_eq_ok {first : Except ε α} {next : α → Except ε β} {b : β} :
    first >>= next = .ok b ↔ ∃ a, first = .ok a ∧ next a = .ok b := by
  cases first with
  | error e => exact ⟨nofun, fun ⟨_, h, _⟩ => nomatch h⟩
  | ok a => exact ⟨fun h => ⟨a, rfl, h⟩, fun ⟨_, ha, h⟩ => Except.ok.inj ha ▸ h⟩

@[simp] theorem pure_eq_ok {a b : α} : (pure a : Except ε α) = .ok b ↔ a = b :=
  ⟨Except.ok.inj, congrArg Except.ok⟩

/-- A chain of two steps fails as the first does, or as the second if the first succeeds. -/
theorem bind_eq_error {first : Except ε α} {next : α → Except ε β} {e : ε} :
    first >>= next = .error e ↔ first = .error e ∨ ∃ a, first = .ok a ∧ next a = .error e := by
  cases first with
  | error e' =>
    refine ⟨fun h => .inl (Except.error.inj h ▸ rfl), ?_⟩
    rintro (h | ⟨_, h, _⟩)
    · exact Except.error.inj h ▸ rfl
    · cases h
  | ok a =>
    refine ⟨fun h => .inr ⟨a, rfl, h⟩, ?_⟩
    rintro (h | ⟨_, ha, h⟩)
    · cases h
    · exact Except.ok.inj ha ▸ h

/-- What is made of a value in the end changes no failure. -/
theorem bind_pure_eq_error {first : Except ε α} {f : α → β} {e : ε} :
    (first >>= fun a => pure (f a)) = .error e ↔ first = .error e := by
  rw [bind_eq_error]
  refine ⟨?_, .inl⟩
  rintro (h | ⟨_, -, h⟩)
  · exact h
  · cases h

theorem ok_ne_error {a : α} {e : ε} : (Except.ok a : Except ε α) ≠ .error e := nofun

/-- An outcome is a value or an error. -/
theorem ok_or_error (x : Except ε α) : (∃ a, x = .ok a) ∨ ∃ e, x = .error e := by
  cases x with
  | error e => exact .inr ⟨e, rfl⟩
  | ok a => exact .inl ⟨a, rfl⟩

/-- Outcomes with the same successes are the same success or two failures. -/
theorem both_ok_or_both_error {x y : Except ε α} (h : ∀ a, x = .ok a ↔ y = .ok a) :
    (∃ a, x = .ok a ∧ y = .ok a) ∨ ∃ e e', x = .error e ∧ y = .error e' := by
  rcases ok_or_error x with ⟨a, hx⟩ | ⟨e, hx⟩
  · exact .inl ⟨a, hx, (h a).mp hx⟩
  · rcases ok_or_error y with ⟨a, hy⟩ | ⟨e', hy⟩
    · rw [(h a).mpr hy] at hx
      cases hx
    · exact .inr ⟨e, e', hx, hy⟩

namespace ConvertError

@[simp] theorem locate_eq_ok {place : Place} {x : Except ConvertError α} {a : α} :
    locate place x = .ok a ↔ x = .ok a := by
  cases x with
  | error e => simp [locate]
  | ok b => simp [locate]

theorem locate_eq_error {place : Place} {x : Except ConvertError α} {e : ConvertError} :
    locate place x = .error e ↔ ∃ cause, x = .error cause ∧ e = within place cause := by
  cases x with
  | error cause => simp [locate, eq_comm]
  | ok a => simp [locate]

theorem root_of_locate_eq_error {place : Place} {x : Except ConvertError α} {e : ConvertError}
    (h : locate place x = .error e) : ∃ cause, x = .error cause ∧ e.root = cause.root := by
  cases x with
  | error cause =>
    obtain rfl := Except.error.inj h
    exact ⟨cause, rfl, rfl⟩
  | ok a => cases h

theorem eq_refused_of_lift_eq_error {x : Except ValueError α} {e : ConvertError}
    (h : lift x = .error e) : ∃ cause, x = .error cause ∧ e = refused cause := by
  cases x with
  | error cause => exact ⟨cause, rfl, (Except.error.inj h).symm⟩
  | ok a => cases h

@[simp] theorem lift_eq_ok {x : Except ValueError α} {a : α} : lift x = .ok a ↔ x = .ok a := by
  cases x with
  | error e => simp [lift]
  | ok b => simp [lift]

end ConvertError

end ScriptBridge
