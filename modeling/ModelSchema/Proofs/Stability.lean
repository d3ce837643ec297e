import ModelSchema.Proofs.Definitions
import ModelSchema.Proofs.Failure
import ModelSchema.Proofs.Simulation

namespace ModelSchema

/-- Where `x` comes to an end, `y` does the same. -/
def Settles {α : Type} (x y : Walk α) : Prop :=
  ∀ p, (∃ q, x p = .error .endless q) ∨ y p = x p

namespace Settles

variable {α β : Type}

theorem refl (x : Walk α) : Settles x x :=
  fun _ => Or.inr rfl

theorem endless (y : Walk α) : Settles (throw .endless) y :=
  fun p => Or.inl ⟨p, rfl⟩

theorem bind {x y : Walk α} {f k : α → Walk β} (h : Settles x y) (hf : ∀ a, Settles (f a) (k a)) :
    Settles (x >>= f) (y >>= k) := by
  intro p
  show (∃ q, EStateM.bind x f p = .error .endless q) ∨ EStateM.bind y k p = EStateM.bind x f p
  simp only [EStateM.bind]
  obtain ⟨q, hq⟩ | hp := h p
  · exact Or.inl ⟨q, by rw [hq]⟩
  · rw [hp]
    cases x p with
    | ok a r => exact hf a r
    | error e r => exact Or.inr rfl

def simulation (g : TypeGraph) : Simulation g g where
  rel := Settles
  owners := Eq
  refl := refl
  endless := endless
  bind := bind
  inlineNotStruct := by
    rintro α owner _ field type rfl
    exact refl _
  unsupportedMapKey := by
    rintro α owner _ key rfl
    exact refl _

end Settles

namespace Proofs.Stability

open Bounds Definitions

variable (g : TypeGraph) (s : Settings)

structure WalkSettles (n m : Nat) : Prop where
  collect : ∀ t o, Settles (Walk.collect g s n t o) (Walk.collect g s m t o)
  collectField : ∀ owner o f,
    Settles (Walk.collectField g s n owner o f) (Walk.collectField g s m owner o f)
  describe : ∀ owner r omitEmpty,
    Settles (Walk.describe g s n owner r omitEmpty) (Walk.describe g s m owner r omitEmpty)
  visit : ∀ t, Settles (Walk.visit g s n t) (Walk.visit g s m t)

variable {g s}

theorem walk_settles {n m : Nat} (h : n ≤ m) : WalkSettles g s n m := by
  -- By induction on the smaller bound, which the parts of the walk hand on to each other.
  have walks : (Settles.simulation g).Walks s n m := by
    induction n generalizing m with
    | zero => exact .zero _ m
    | succ n ih =>
      obtain ⟨m, rfl⟩ : ∃ k, m = k + 1 := ⟨m - 1, by omega⟩
      have hle : n ≤ m := Nat.le_of_succ_le_succ h
      refine (ih hle).succ (.refl g) (fun _ _ => rfl) hle (fieldsWithin_keeps g s h) fun t o => ?_
      simp only [Walk.collect]
      exact (Settles.simulation g).foldlM ((ih hle).collectField rfl) _ o
  exact {
    collect := walks.collect
    collectField := fun _ => walks.collectField rfl
    describe := fun _ => walks.describe rfl
    visit := walks.visit }

theorem entryWithin_keeps {n m : Nat} (h : n ≤ m) (v : Visited) :
    Keeps (g.entryWithin s n v) (g.entryWithin s m v) :=
  (definitionWithin_keeps h v).map _

/-- Under a larger bound the outcome is the same, with the same log. -/
theorem generateWithin_settles {n m : Nat} (h : n ≤ m) {root : TypeRef}
    (hend : (g.generateWithin s n root).result ≠ .error (.walk .endless)) :
    g.generateWithin s m root = g.generateWithin s n root := by
  by_cases hs : (g.info (s.substitute root)).kind.isStruct
  · simp only [TypeGraph.generateWithin, hs, not_true_eq_false, if_false] at hend ⊢
    obtain ⟨q, hq⟩ | hwalk := (walk_settles (g := g) (s := s) h).collect (s.substitute root) .open {}
    · simp [Walk.ofRoot, hq] at hend
    · simp only [Walk.ofRoot, hwalk] at hend ⊢
      cases hw : Walk.collect g s n (s.substitute root) .open {} with
      | error e p => rfl
      | ok o p =>
        simp only [hw] at hend
        cases he : p.visited.mapM (g.entryWithin s n) with
        | none => simp [he] at hend
        | some es => simp only [he, Keeps.mapM p.visited (entryWithin_keeps h) es he]
  · simp [TypeGraph.generateWithin, hs]

end Proofs.Stability

end ModelSchema
