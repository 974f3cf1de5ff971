import WordStm.Machine

/-!
# Computations that succeeded or failed

A computation in sequence succeeds exactly if each part does, and fails at the
first part that fails.  Proofs about an operation take it apart by these
equivalences.
-/

namespace WordStm

variable {ε α β : Type}

theorem bind_eq_ok {first : Except ε α} {rest : α → Except ε β} {result : β} :
    (first >>= rest) = .ok result ↔ ∃ value, first = .ok value ∧ rest value = .ok result := by
  cases first with
  | error reason =>
      constructor
      · intro impossible
        cases impossible
      · rintro ⟨_, impossible, _⟩
        cases impossible
  | ok value =>
      constructor
      · intro succeeded
        exact ⟨value, rfl, succeeded⟩
      · rintro ⟨_, same, succeeded⟩
        cases same
        exact succeeded

theorem bind_eq_error {first : Except ε α} {rest : α → Except ε β} {reason : ε} :
    (first >>= rest) = .error reason ↔
      first = .error reason ∨ ∃ value, first = .ok value ∧ rest value = .error reason := by
  cases first with
  | error other =>
      constructor
      · intro failed
        cases failed
        exact .inl rfl
      · rintro (failed | ⟨_, impossible, _⟩)
        · cases failed
          rfl
        · cases impossible
  | ok value =>
      constructor
      · intro failed
        exact .inr ⟨value, rfl, failed⟩
      · rintro (impossible | ⟨_, same, failed⟩)
        · cases impossible
        · cases same
          exact failed

/-- Two branches that go on alike. -/
theorem ite_bind_eq_ok {condition : Prop} [Decidable condition] {first second : Except ε α}
    {rest : α → Except ε β} {result : β} :
    (if condition then first >>= rest else second >>= rest) = .ok result ↔
      ∃ value, (if condition then first else second) = .ok value ∧ rest value = .ok result := by
  split <;> exact bind_eq_ok

theorem pure_eq_ok {value result : α} :
    (pure value : Except ε α) = .ok result ↔ value = result := by
  simp [pure, Except.pure]

end WordStm
