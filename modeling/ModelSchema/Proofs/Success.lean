import ModelSchema.Schema.Walk

namespace ModelSchema.Proofs.Success

variable {α β : Type}

theorem bind_ok {x : Walk α} {k : α → Walk β} {p q : Progress} {b : β} :
    (x >>= k) p = .ok b q ↔ ∃ a r, x p = .ok a r ∧ k a r = .ok b q := by
  show EStateM.bind x k p = .ok b q ↔ _
  unfold EStateM.bind
  cases x p with
  | ok a r =>
    constructor
    · exact fun h => ⟨a, r, rfl, h⟩
    · rintro ⟨_, _, h, hk⟩
      cases h
      exact hk
  | error e r => simp

theorem pure_ok {a b : α} {p q : Progress} :
    (pure a : Walk α) p = .ok b q ↔ b = a ∧ q = p := by
  show EStateM.Result.ok a p = .ok b q ↔ _
  rw [EStateM.Result.ok.injEq]
  exact ⟨fun ⟨h, h'⟩ => ⟨h.symm, h'.symm⟩, fun ⟨h, h'⟩ => ⟨h.symm, h'.symm⟩⟩

theorem throw_ok {e : WalkError} {b : α} {p q : Progress} :
    (throw e : Walk α) p = .ok b q ↔ False := by
  show EStateM.Result.error e p = .ok b q ↔ _
  simp

theorem modify_ok {f : Progress → Progress} {u : Unit} {p q : Progress} :
    (modify f : Walk Unit) p = .ok u q ↔ q = f p := by
  show EStateM.Result.ok () (f p) = .ok u q ↔ _
  rw [EStateM.Result.ok.injEq]
  exact ⟨fun ⟨_, h⟩ => h.symm, fun h => ⟨rfl, h.symm⟩⟩

theorem get_ok {a p q : Progress} : (get : Walk Progress) p = .ok a q ↔ a = p ∧ q = p := by
  show EStateM.Result.ok p p = .ok a q ↔ _
  rw [EStateM.Result.ok.injEq]
  exact ⟨fun ⟨h, h'⟩ => ⟨h.symm, h'.symm⟩, fun ⟨h, h'⟩ => ⟨h.symm, h'.symm⟩⟩

theorem ofOption_ok {a : Option α} {b : α} {p q : Progress} :
    Walk.ofOption a p = .ok b q ↔ a = some b ∧ q = p := by
  cases a with
  | none =>
    rw [Walk.ofOption, throw_ok]
    simp
  | some a =>
    rw [Walk.ofOption, pure_ok, Option.some.injEq, eq_comm (a := a)]

end ModelSchema.Proofs.Success
