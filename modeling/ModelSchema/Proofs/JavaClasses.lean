import ModelSchema.Proofs.Growth
import ModelSchema.Proofs.References

namespace ModelSchema

def InstanceType.javaClass? : InstanceType → Option String
  | .boolean => some "Boolean"
  | .integer => some "Integer"
  | .number => some "Double"
  | .string => some "String"
  | .object | .array => none

namespace Property

/-- The Java class of the values of a property. A class that exists already goes before all else. -/
def javaClass? : Property → Option String
  | ⟨descriptor, reference, _, items, mapValue, java⟩ =>
    match java.existingJavaType, mapValue, reference, items with
    | some j, _, _, _ => some j
    | none, some v, _, _ => v.javaClass?.map Java.mapOf
    | none, none, some _, _ => java.javaType
    | none, none, none, some e => e.javaClass?.map Java.arrayListOf
    | none, none, none, none => descriptor.instanceType.bind InstanceType.javaClass?

/-- Every map among the parts of the property names the class that is read off its values. -/
def NamesMaps (p : Property) : Prop :=
  ∀ q v : Property, q.Part p → q.mapValue = some v →
    ∃ j, v.javaClass? = some j ∧ q.java.javaType = some (Java.mapOf j)

end Property

namespace Proofs.JavaClasses

open Reading Reach

section

variable (g : TypeGraph) (s : Settings)

theorem javaClass?_property (x : TypeExpr) (omitEmpty : Bool) :
    (x.property g s omitEmpty).javaClass? = some (x.javaType g s) := by
  induction x generalizing omitEmpty with
  | primitive p => cases p <;> rfl
  | manual _ | any | enumeration _ | bytes | struct _ => rfl
  | list e ih =>
    show ((e.property g s false).javaClass?).map Java.arrayListOf = _
    rw [ih]
    rfl
  | map v ih =>
    show ((v.property g s false).javaClass?).map Java.mapOf = _
    rw [ih]
    rfl

variable {p : Property}

theorem namesMaps_of_parts (ho : p.object = none)
    (hp : ∀ v, p.mapValue = some v →
      v.NamesMaps ∧ ∃ j, v.javaClass? = some j ∧ p.java.javaType = some (Java.mapOf j))
    (hi : ∀ e, p.items = some e → e.NamesMaps) : p.NamesMaps := by
  intro q v hq hv
  cases hq with
  | self => exact (hp v hv).2
  | property h _ _ => simp [ho] at h
  | items he hq => exact hi _ he q v hq hv
  | mapValue hw hq => exact (hp _ hw).1 q v hq hv

theorem namesMaps_of_leaf (ho : p.object = none) (hm : p.mapValue = none) (hi : p.items = none) :
    p.NamesMaps :=
  namesMaps_of_parts ho (by simp [hm]) (by simp [hi])

theorem namesMaps_property (x : TypeExpr) (omitEmpty : Bool) :
    (x.property g s omitEmpty).NamesMaps := by
  induction x generalizing omitEmpty with
  | primitive p => cases p <;> exact namesMaps_of_leaf rfl rfl rfl
  | manual _ | any | enumeration _ | bytes | struct _ => exact namesMaps_of_leaf rfl rfl rfl
  | list e ih =>
    refine namesMaps_of_parts rfl (by rintro v ⟨⟩) ?_
    rintro _ ⟨⟩
    exact ih false
  | map v ih =>
    refine namesMaps_of_parts rfl ?_ (by rintro e ⟨⟩)
    rintro _ ⟨⟩
    exact ⟨ih false, _, javaClass?_property g s v false, rfl⟩

end

variable {g : TypeGraph} {s : Settings}

theorem javaTypeWithin_of_expr {n : Nat} {r : TypeRef} {x : TypeExpr}
    (hx : g.exprWithin s n r = some x) :
    g.javaTypeWithin s n (s.substitute r) = some (x.javaType g s) := by
  induction n generalizing r x with
  | zero => cases hx
  | succ n ih =>
    unfold TypeGraph.exprWithin at hx
    unfold TypeGraph.javaTypeWithin
    dsimp only at hx
    cases hm : s.manualType? (s.substitute r) with
    | some t =>
      simp only [hm, Option.some.injEq] at hx ⊢
      subst hx
      rfl
    | none =>
      simp only [hm] at hx ⊢
      cases hk : (g.info (s.substitute r)).kind with
      | optional e =>
        simp only [hk] at hx ⊢
        exact ih hx
      | seq e =>
        simp only [hk] at hx ⊢
        cases hb : g.isByte (s.substitute e) with
        | true =>
          simp only [hb, if_true, Option.some.injEq] at hx ⊢
          subst hx
          rfl
        | false =>
          simp only [hb, Bool.false_eq_true, if_false, Option.map_eq_some_iff] at hx ⊢
          obtain ⟨y, hy, rfl⟩ := hx
          exact ⟨_, ih hy, rfl⟩
      | map k v =>
        simp only [hk, Option.map_eq_some_iff] at hx ⊢
        obtain ⟨y, hy, rfl⟩ := hx
        exact ⟨_, ih hy, rfl⟩
      | primitive p | any | struct fs | enumeration vs =>
        simp only [hk, Option.some.injEq] at hx ⊢
        subst hx
        rfl

/-- If the walk describes a reference by a property, the Java class of its substitute is the one
read off the property. Each map among the parts of the property names its own class so. -/
theorem describe_javaClass {n : Nat} {owner r : TypeRef} {omitEmpty : Bool} {p q : Progress}
    {x : Property} (h : Walk.describe g s n owner r omitEmpty p = .ok x q) :
    (∃ j, x.javaClass? = some j ∧
      ∀ m, n ≤ m → g.javaTypeWithin s m (s.substitute r) = some j) ∧ x.NamesMaps := by
  obtain ⟨e, _, he, rfl, _⟩ := (Growth.walk_grows g s n).1 h
  refine ⟨⟨e.javaType g s, javaClass?_property g s e omitEmpty, fun m hm => ?_⟩,
    namesMaps_property g s e omitEmpty⟩
  exact Bounds.javaTypeWithin_keeps g s hm _ _ (javaTypeWithin_of_expr he)

def legacyTables : TypeRef :=
  .list (.map .sorted (.declared "text") (.option (.declared "Legacy")))

theorem legacyTables_javaClass : ∃ x q,
    Walk.describe shop shopSettings 20 (.declared "Order") legacyTables true {} = .ok x q ∧
      x.javaClass? = some "java.util.ArrayList<java.util.Map<String,Item>>" ∧
      ∀ m, 20 ≤ m → shop.javaTypeWithin shopSettings m legacyTables =
        some "java.util.ArrayList<java.util.Map<String,Item>>" := by
  obtain ⟨x, q, h, hx⟩ : ∃ x q,
      Walk.describe shop shopSettings 20 (.declared "Order") legacyTables true {} = .ok x q ∧
        x.javaClass? = some "java.util.ArrayList<java.util.Map<String,Item>>" :=
    ⟨_, _, rfl, rfl⟩
  obtain ⟨⟨j, hj, hm⟩, _⟩ := describe_javaClass h
  cases hx.symm.trans hj
  exact ⟨x, q, h, hx, hm⟩

end Proofs.JavaClasses

end ModelSchema
