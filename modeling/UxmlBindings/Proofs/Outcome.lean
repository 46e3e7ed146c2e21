/-!
# Outcomes

A sequence of two steps that can fail succeeds exactly if both of them do. What a run yields is its
outcome and the state that it leaves.
-/

namespace UxmlBindings

variable {ε α β : Type}

/-- Both steps of a successful sequence have succeeded. -/
theorem bind_eq_ok_iff {first : Except ε α} {second : α → Except ε β} {result : β} :
    first >>= second = .ok result ↔ ∃ value, first = .ok value ∧ second value = .ok result := by
  cases first with
  | error failure =>
    constructor
    · intro h
      cases h
    · rintro ⟨value, h, _⟩
      cases h
  | ok value =>
    constructor
    · intro h
      exact ⟨value, rfl, h⟩
    · rintro ⟨value', heq, h⟩
      cases heq
      exact h

/-- Another wording of failures makes no difference to a success. -/
theorem mapError_eq_ok_iff {ε' : Type} {outcome : Except ε α} {reword : ε → ε'} {value : α} :
    outcome.mapError reword = .ok value ↔ outcome = .ok value := by
  cases outcome with
  | error failure =>
    constructor
    · intro h
      cases h
    · intro h
      cases h
  | ok result =>
    have hresult : (Except.ok result : Except ε α).mapError reword = .ok result := rfl
    rw [hresult, Except.ok.injEq, Except.ok.injEq]

/-- An outcome is known by its value. -/
theorem eq_ok_of_toOption {outcome : Except ε α} {value : α}
    (h : outcome.toOption = some value) : outcome = .ok value := by
  cases outcome with
  | error failure => cases h
  | ok result => exact congrArg Except.ok (Option.some.inj h)

/-- A run of which the outcome and something about the state are known. -/
theorem exists_run {run : α × β} {outcome : α} {holds : β → Prop} (houtcome : run.1 = outcome)
    (hlater : holds run.2) : ∃ later, run = (outcome, later) ∧ holds later := by
  obtain ⟨_, later⟩ := run
  exact ⟨later, congrArg (·, later) houtcome, hlater⟩

end UxmlBindings
