import ModelSchema.Proofs.Bounds
import ModelSchema.Schema.Walk

namespace ModelSchema

inductive TypeExpr where
  | manual (javaType : String)
  | primitive (p : Primitive)
  | any
  | enumeration (values : List String)
  | bytes
  | list (elem : TypeExpr)
  | map (value : TypeExpr)
  | struct (type : TypeRef)
  deriving DecidableEq

namespace TypeExpr

variable (g : TypeGraph) (s : Settings)

def javaType : TypeExpr → String
  | .manual t => t
  | .primitive p => Java.boxed p
  | .any => "Object"
  | .enumeration _ => "String"
  | .bytes => "String"
  | .list e => Java.arrayListOf e.javaType
  | .map v => Java.mapOf v.javaType
  | .struct t => s.structJavaType (g.info t)

def property (omitEmpty : Bool) : TypeExpr → Property
  | .manual t => .ofManual t
  | .primitive p => .ofPrimitive p
  | .any => .ofAny
  | .enumeration values => .ofEnumeration values
  | .bytes => .ofBytes
  | .list e => .ofList (e.property false) omitEmpty
  | .map v => .ofMap (v.property false) (Java.mapOf (v.javaType g s)) omitEmpty
  | .struct t => .referenceTo (s.qualifiedName (g.info t)) (s.structJavaType (g.info t))

def target? : TypeExpr → Option TypeRef
  | .list e => e.target?
  | .map v => v.target?
  | .struct t => some t
  | _ => none

end TypeExpr

namespace TypeGraph

variable (g : TypeGraph) (s : Settings)

def exprWithin : Nat → TypeRef → Option TypeExpr
  | 0, _ => none
  | n + 1, r =>
    let t := s.substitute r
    match s.manualType? t with
    | some javaType => some (.manual javaType)
    | none =>
      match (g.info t).kind with
      | .primitive p => some (.primitive p)
      | .any => some .any
      | .enumeration values => some (.enumeration values)
      | .optional e => exprWithin n e
      | .seq e => if g.isByte (s.substitute e) then some .bytes else (exprWithin n e).map .list
      | .map _ v => (exprWithin n v).map .map
      | .struct _ => some (.struct t)

def partWithin (n : Nat) (f : Field) : Option (List Field) :=
  if f.isInline then (g.embeddedWithin s n f.type).bind (g.fieldsWithin s n) else some [f]

def addReadField (n : Nat) (o : ObjectDescriptor) (f : Field) : Option ObjectDescriptor :=
  (g.exprWithin s n f.type).map fun x => g.addField o f (x.property g s f.omitEmpty)

def objectWithin (n : Nat) (t : TypeRef) : Option ObjectDescriptor :=
  (g.fieldsWithin s n t).bind fun fields => fields.foldlM (g.addReadField s n) .open

def finishedWithin (n : Nat) (t : TypeRef) : Option Visited :=
  (g.objectWithin s n t).bind fun o => (g.roleWithin s n t).map fun role =>
    ⟨t, some (s.pinned (g.info t) role o), role⟩

end TypeGraph

namespace Proofs.Reading

open Bounds

variable (g : TypeGraph) (s : Settings)

theorem exprWithin_keeps {n m : Nat} (h : n ≤ m) (r : TypeRef) :
    Keeps (g.exprWithin s n r) (g.exprWithin s m r) := by
  induction n generalizing m r with
  | zero => exact Keeps.none _
  | succ n ih =>
    obtain ⟨m, rfl⟩ : ∃ k, m = k + 1 := ⟨m - 1, by omega⟩
    have hle : n ≤ m := Nat.le_of_succ_le_succ h
    unfold TypeGraph.exprWithin
    dsimp only
    cases s.manualType? (s.substitute r) with
    | some javaType => exact Keeps.refl _
    | none =>
      cases (g.info (s.substitute r)).kind with
      | optional e => exact ih hle e
      | seq e =>
        by_cases hb : g.isByte (s.substitute e)
        · simp only [hb, if_true]
          exact Keeps.refl _
        · simp only [hb]
          exact (ih hle e).map _
      | map k v => exact (ih hle v).map _
      | primitive p | any | struct fs | enumeration vs => exact Keeps.refl _

theorem fieldsWithin_succ (n : Nat) (t : TypeRef) :
    g.fieldsWithin s (n + 1) t =
      ((g.info t).kind.fields.mapM (g.partWithin s n)).map List.flatten := by
  rw [TypeGraph.fieldsWithin, Option.map_eq_bind]
  rfl

theorem addReadField_keeps {n m : Nat} (h : n ≤ m) (o : ObjectDescriptor) (f : Field) :
    Keeps (g.addReadField s n o f) (g.addReadField s m o f) :=
  (exprWithin_keeps g s h f.type).map _

theorem objectWithin_keeps {n m : Nat} (h : n ≤ m) (t : TypeRef) :
    Keeps (g.objectWithin s n t) (g.objectWithin s m t) :=
  (fieldsWithin_keeps g s h t).bind fun _ => Keeps.foldlM _ (addReadField_keeps g s h) _

theorem finishedWithin_keeps {n m : Nat} (h : n ≤ m) (t : TypeRef) :
    Keeps (g.finishedWithin s n t) (g.finishedWithin s m t) :=
  (objectWithin_keeps g s h t).bind fun _ => (roleWithin_keeps g s h t).map _

theorem javaTypeWithin_eq_expr {n m : Nat} {r : TypeRef} {j : String} {x : TypeExpr}
    (hj : g.javaTypeWithin s n (s.substitute r) = some j) (hx : g.exprWithin s m r = some x) :
    j = x.javaType g s := by
  induction m generalizing n r j x with
  | zero => cases hx
  | succ m ih =>
    cases n with
    | zero => cases hj
    | succ n =>
      unfold TypeGraph.javaTypeWithin at hj
      unfold TypeGraph.exprWithin at hx
      dsimp only at hx
      cases hm : s.manualType? (s.substitute r) with
      | some t =>
        simp only [hm, Option.some.injEq] at hj hx
        subst hj hx
        rfl
      | none =>
        simp only [hm] at hj hx
        cases hk : (g.info (s.substitute r)).kind with
        | optional e =>
          simp only [hk] at hj hx
          exact ih hj hx
        | seq e =>
          simp only [hk] at hj hx
          by_cases hb : g.isByte (s.substitute e)
          · simp only [hb, if_true, Option.some.injEq] at hj hx
            subst hj hx
            rfl
          · simp only [hb, Bool.false_eq_true, if_false, Option.map_eq_some_iff] at hj hx
            obtain ⟨j', hj', rfl⟩ := hj
            obtain ⟨x', hx', rfl⟩ := hx
            rw [ih hj' hx']
            rfl
        | map k v =>
          simp only [hk, Option.map_eq_some_iff] at hj hx
          obtain ⟨j', hj', rfl⟩ := hj
          obtain ⟨x', hx', rfl⟩ := hx
          rw [ih hj' hx']
          rfl
        | primitive p | any | struct fs | enumeration vs =>
          simp only [hk, Option.some.injEq] at hj hx
          subst hj hx
          rfl

variable {g} in
theorem noteField_cases {n : Nat} {l l' : Landmarks} {f : Field}
    (h : g.noteField n l f = some l') :
    (f.name = "apiVersion" ∧ l' = { l with apiVersion := true }) ∨
    (f.name = "kind" ∧ l' = { l with kind := true }) ∨
    (f.name = "metadata" ∧ ∃ t, g.resolveWithin n f.type = some t ∧
      l' = { l with metadata := some t }) ∨
    (f.name = "items" ∧ l' = { l with items := some f.type }) ∨
    (f.name ∉ ["apiVersion", "kind", "metadata", "items"] ∧ l' = l) := by
  unfold TypeGraph.noteField at h
  split at h
  · rename_i hf
    exact .inl ⟨hf, (Option.some.inj h).symm⟩
  split at h
  · rename_i hf
    exact .inr (.inl ⟨hf, (Option.some.inj h).symm⟩)
  split at h
  · rename_i hf
    obtain ⟨t, ht, hl⟩ := Option.map_eq_some_iff.mp h
    exact .inr (.inr (.inl ⟨hf, t, ht, hl.symm⟩))
  split at h
  · rename_i hf
    exact .inr (.inr (.inr (.inl ⟨hf, (Option.some.inj h).symm⟩)))
  · rename_i ha hk hm hi
    exact .inr (.inr (.inr (.inr ⟨by simp [ha, hk, hm, hi], (Option.some.inj h).symm⟩)))

end Proofs.Reading

end ModelSchema
