import ModelSchema.Proofs.Variation

namespace ModelSchema

/-- A relation between parts of the walks of two graphs. Errors may name different owners, if the
owners are related. -/
structure Simulation (g g' : TypeGraph) where
  rel : {α : Type} → Walk α → Walk α → Prop
  owners : TypeRef → TypeRef → Prop
  refl : ∀ {α : Type} (x : Walk α), rel x x
  endless : ∀ {α : Type} (y : Walk α), rel (throw .endless) y
  bind : ∀ {α β : Type} {x y : Walk α} {f k : α → Walk β}, rel x y → (∀ a, rel (f a) (k a)) →
    rel (x >>= f) (y >>= k)
  inlineNotStruct : ∀ {α : Type} {owner owner' : TypeRef} (field type : String),
    owners owner owner' → rel (throw (.inlineNotStruct (g.displayName owner) field type) : Walk α)
      (throw (.inlineNotStruct (g'.displayName owner') field type))
  unsupportedMapKey : ∀ {α : Type} {owner owner' : TypeRef} (key : String),
    owners owner owner' → rel (throw (.unsupportedMapKey (g.displayName owner) key) : Walk α)
      (throw (.unsupportedMapKey (g'.displayName owner') key))

namespace Simulation

open Proofs.Bounds

variable {g g' : TypeGraph} (S : Simulation g g') {s : Settings} {n m : Nat}

theorem ofOption {α : Type} {a b : Option α} (h : Keeps a b) :
    S.rel (Walk.ofOption a) (Walk.ofOption b) := by
  cases a with
  | none => exact S.endless _
  | some x =>
    rw [h x rfl]
    exact S.refl _

section

variable {α β : Type} {f k : β → α → Walk β} (h : ∀ b x, S.rel (f b x) (k b x))
include h

theorem foldlM (xs : List α) (b : β) : S.rel (xs.foldlM f b) (xs.foldlM k b) := by
  induction xs generalizing b with
  | nil => exact S.refl _
  | cons x xs ih =>
    rw [List.foldlM_cons, List.foldlM_cons]
    exact S.bind (h b x) ih

theorem foldlM_around (before after : List α) {xs ys : List α}
    (hmiddle : ∀ b, S.rel (xs.foldlM f b) (ys.foldlM k b)) (b : β) :
    S.rel ((before ++ xs ++ after).foldlM f b) ((before ++ ys ++ after).foldlM k b) := by
  simp only [List.foldlM_append]
  exact S.bind (S.bind (S.foldlM h before b) hmiddle) (S.foldlM h after)

end

/-- The relation holds between every part of the walk of `g` under the bound `n` and the same part
of the walk of `g'` under `m`. -/
structure Walks (s : Settings) (n m : Nat) : Prop where
  fields : ∀ t, Keeps (g.fieldsWithin s n t) (g'.fieldsWithin s m t)
  collect : ∀ t o, S.rel (Walk.collect g s n t o) (Walk.collect g' s m t o)
  collectField : ∀ {owner owner'}, S.owners owner owner' → ∀ o f,
    S.rel (Walk.collectField g s n owner o f) (Walk.collectField g' s m owner' o f)
  describe : ∀ {owner owner'}, S.owners owner owner' → ∀ r omitEmpty,
    S.rel (Walk.describe g s n owner r omitEmpty) (Walk.describe g' s m owner' r omitEmpty)
  visit : ∀ t, S.rel (Walk.visit g s n t) (Walk.visit g' s m t)

namespace Walks

theorem zero (m : Nat) : S.Walks s 0 m where
  fields := fun _ => Keeps.none _
  collect := fun _ _ => S.endless _
  collectField := fun _ _ _ => S.endless _
  describe := fun _ _ _ => S.endless _
  visit := fun _ => S.endless _

variable {S} (h : g.Resembles g') (hj : TypeGraph.Resembles.SameClasses s g g') (hle : n ≤ m)
  (ih : S.Walks s n m)
include h hle ih

theorem collectField_succ {owner owner' : TypeRef} (ho : S.owners owner owner')
    (o : ObjectDescriptor) (f : Field) :
    S.rel (Walk.collectField g s (n + 1) owner o f)
      (Walk.collectField g' s (m + 1) owner' o f) := by
  simp only [Walk.collectField, h.embeddedWithin_eq, h.isStruct_eq, h.addField_eq]
  split
  · refine S.bind (S.ofOption (embeddedWithin_keeps g s hle f.type)) fun e => ?_
    split
    · exact ih.collect e o
    · rw [h.displayName_eq e]
      exact S.inlineNotStruct _ _ ho
  · exact S.bind (ih.describe ho f.type f.omitEmpty) fun p => S.refl _

include hj

theorem describe_succ {owner owner' : TypeRef} (ho : S.owners owner owner') (r : TypeRef)
    (omitEmpty : Bool) :
    S.rel (Walk.describe g s (n + 1) owner r omitEmpty)
      (Walk.describe g' s (m + 1) owner' r omitEmpty) := by
  have hjava (t : TypeRef) : S.rel (Walk.ofOption (g.javaTypeWithin s n t))
      (Walk.ofOption (g'.javaTypeWithin s m t)) := by
    rw [h.javaTypeWithin_eq hj]
    exact S.ofOption (javaTypeWithin_keeps g s hle t)
  have hstruct (t : TypeRef) : S.rel
      (do
        Walk.visit g s n t
        let javaType ← Walk.ofOption (g.javaTypeWithin s n t)
        return Property.referenceTo (s.qualifiedName (g.info t)) javaType)
      (do
        Walk.visit g' s m t
        let javaType ← Walk.ofOption (g'.javaTypeWithin s m t)
        return Property.referenceTo (s.qualifiedName (g'.info t)) javaType) := by
    rw [h.qualifiedName_eq]
    exact S.bind (ih.visit t) fun _ => S.bind (hjava t) fun j => S.refl _
  simp only [Walk.describe]
  cases s.manualType? (s.substitute r) with
  | some j => exact S.refl _
  | none =>
    obtain hk | ⟨⟨fs, hk⟩, fs', hk'⟩ := h.kind (s.substitute r)
    · rw [hk]
      cases (g.info (s.substitute r)).kind with
      | optional e => exact ih.describe ho e omitEmpty
      | seq e =>
        simp only [h.isByte_eq]
        split
        · exact S.refl _
        · exact S.bind (ih.describe ho e false) fun items => S.refl _
      | map k v =>
        simp only [h.resolveWithin_eq, h.isKey_eq]
        refine S.bind (S.ofOption (resolveWithin_keeps g hle _)) fun key => ?_
        split
        · refine S.bind (hjava _) fun j => ?_
          exact S.bind (ih.describe ho v false) fun value => S.refl _
        · rw [h.displayName_eq key]
          exact S.unsupportedMapKey _ ho
      | struct fs => exact hstruct _
      | primitive _ | any | enumeration _ => exact S.refl _
    · rw [hk, hk']
      exact hstruct _

theorem role (t : TypeRef) : Keeps (g.roleWithin s n t) (g'.roleWithin s m t) := by
  rw [TypeGraph.roleWithin_eq_bind, TypeGraph.roleWithin_eq_bind]
  refine (ih.fields t).bind fun fs => ?_
  rw [h.roleOfWithin_eq hj]
  exact TypeGraph.roleOfWithin_keeps hle fs

theorem visit_succ (t : TypeRef) :
    S.rel (Walk.visit g s (n + 1) t) (Walk.visit g' s (m + 1) t) := by
  have hpinned : s.pinned (g'.info t) = s.pinned (g.info t) := by
    rw [h.info t]
    rfl
  simp only [Walk.visit, h.qualifiedName_eq, hpinned]
  refine S.bind (S.refl _) fun p => ?_
  split
  · exact S.refl _
  · refine S.bind (S.refl _) fun _ => ?_
    refine S.bind (ih.collect t _) fun o => ?_
    exact S.bind (S.ofOption (ih.role h hj hle t)) fun role => S.refl _

theorem succ (hfields : ∀ t, Keeps (g.fieldsWithin s (n + 1) t) (g'.fieldsWithin s (m + 1) t))
    (hcollect : ∀ t o, S.rel (Walk.collect g s (n + 1) t o) (Walk.collect g' s (m + 1) t o)) :
    S.Walks s (n + 1) (m + 1) where
  fields := hfields
  collect := hcollect
  collectField := ih.collectField_succ h hle
  describe := ih.describe_succ h hj hle
  visit := ih.visit_succ h hj hle

end Walks

end Simulation

end ModelSchema
