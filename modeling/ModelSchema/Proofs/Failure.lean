import ModelSchema.Schema.Walk

namespace ModelSchema.Proofs.Failure

variable {α β : Type}

theorem bind_error {x : Walk α} {k : α → Walk β} {p q : Progress} {e : WalkError} :
    (x >>= k) p = .error e q ↔ x p = .error e q ∨ ∃ a r, x p = .ok a r ∧ k a r = .error e q := by
  show EStateM.bind x k p = .error e q ↔ _
  simp only [EStateM.bind]
  cases x p with
  | ok a r =>
    constructor
    · exact fun h => Or.inr ⟨a, r, rfl, h⟩
    · rintro (h | ⟨_, _, h, hk⟩)
      · cases h
      · cases h
        exact hk
  | error e' r => simp

theorem pure_error {a : α} {p q : Progress} {e : WalkError} :
    (pure a : Walk α) p = .error e q ↔ False := by
  show EStateM.Result.ok a p = .error e q ↔ _
  simp

theorem throw_error {e e' : WalkError} {p q : Progress} :
    (throw e : Walk α) p = .error e' q ↔ e' = e ∧ q = p := by
  show EStateM.Result.error e p = .error e' q ↔ _
  rw [EStateM.Result.error.injEq]
  exact ⟨fun ⟨h, h'⟩ => ⟨h.symm, h'.symm⟩, fun ⟨h, h'⟩ => ⟨h.symm, h'.symm⟩⟩

theorem modify_error {f : Progress → Progress} {p q : Progress} {e : WalkError} :
    (modify f : Walk Unit) p = .error e q ↔ False := by
  show EStateM.Result.ok () (f p) = .error e q ↔ _
  simp

end ModelSchema.Proofs.Failure
