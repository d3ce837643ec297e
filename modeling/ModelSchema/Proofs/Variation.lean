import ModelSchema.Proofs.Chains
import ModelSchema.Schema.Generate

namespace ModelSchema

namespace TypeGraph

open Proofs.Bounds

def withFields (g : TypeGraph) (t : TypeRef) (fields : List Field) : TypeGraph where
  info r := if r = t then { g.info r with kind := .struct fields } else g.info r
  refs := g.refs

/-- The types are the same, but for the fields of structs. -/
structure Resembles (g g' : TypeGraph) : Prop where
  info : ∀ t, g'.info t = { g.info t with kind := (g'.info t).kind }
  kind : ∀ t, (g'.info t).kind = (g.info t).kind ∨
    (∃ fs, (g.info t).kind = .struct fs) ∧ ∃ fs, (g'.info t).kind = .struct fs

variable {g g' : TypeGraph} {s : Settings}

theorem withFields_self (g : TypeGraph) (t : TypeRef) (fields : List Field) :
    (g.withFields t fields).info t = { g.info t with kind := .struct fields } :=
  if_pos rfl

theorem withFields_of_ne {t u : TypeRef} (fields : List Field) (h : u ≠ t) :
    (g.withFields t fields).info u = g.info u :=
  if_neg h

theorem withFields_resembles {t : TypeRef} (fields : List Field)
    (h : ∃ fs, (g.info t).kind = .struct fs) : g.Resembles (g.withFields t fields) where
  info := by
    intro u
    by_cases hu : u = t
    · rw [hu, withFields_self]
    · rw [withFields_of_ne fields hu]
  kind := by
    intro u
    by_cases hu : u = t
    · rw [hu, withFields_self]
      exact Or.inr ⟨h, fields, rfl⟩
    · rw [withFields_of_ne fields hu]
      exact Or.inl rfl

namespace Resembles

theorem refl (g : TypeGraph) : g.Resembles g where
  info := fun _ => rfl
  kind := fun _ => Or.inl rfl

section

variable (h : g.Resembles g')
include h

theorem symm : g'.Resembles g where
  info := by
    intro t
    rw [h.info t]
  kind := fun t => (h.kind t).imp Eq.symm And.symm

theorem apply_kind {α : Type} (φ : Kind → α) (hφ : ∀ fs fs', φ (.struct fs) = φ (.struct fs'))
    (t : TypeRef) : φ (g'.info t).kind = φ (g.info t).kind := by
  obtain hk | ⟨⟨fs, hk⟩, fs', hk'⟩ := h.kind t
  · rw [hk]
  · rw [hk, hk', hφ]

theorem isStruct_eq (t : TypeRef) : (g'.info t).kind.isStruct = (g.info t).kind.isStruct :=
  h.apply_kind Kind.isStruct (fun _ _ => rfl) t

theorem isOptional_eq (t : TypeRef) :
    (g'.info t).kind.isOptional = (g.info t).kind.isOptional :=
  h.apply_kind Kind.isOptional (fun _ _ => rfl) t

theorem isKey_eq (t : TypeRef) : (g'.info t).kind.isKey = (g.info t).kind.isKey :=
  h.apply_kind Kind.isKey (fun _ _ => rfl) t

theorem label_eq (t : TypeRef) : (g'.info t).kind.label = (g.info t).kind.label :=
  h.apply_kind Kind.label (fun _ _ => rfl) t

theorem isByte_eq (t : TypeRef) : g'.isByte t = g.isByte t :=
  h.apply_kind (fun k => decide (k = .primitive .uint8)) (fun _ _ => rfl) t

theorem kind_eq {t : TypeRef} {k : Kind} (hk : (g.info t).kind = k) (hs : k.isStruct = false) :
    (g'.info t).kind = k := by
  obtain he | ⟨⟨fs, he⟩, _⟩ := h.kind t
  · exact he.trans hk
  · rw [← hk, he] at hs
    cases hs

theorem displayName_eq (t : TypeRef) : g'.displayName t = g.displayName t := by
  simp only [displayName, TypeInfo.displayName]
  rw [h.info t]
  simp only [h.label_eq t]

theorem qualifiedName_eq (t : TypeRef) :
    s.qualifiedName (g'.info t) = s.qualifiedName (g.info t) := by
  rw [h.info t]
  rfl

theorem structJavaType_eq {t : TypeRef}
    (hn : (g.info t).name ≠ "" ∨ (s.package? (g.info t).package).isSome = true) :
    s.structJavaType (g'.info t) = s.structJavaType (g.info t) := by
  rw [h.info t]
  unfold Settings.structJavaType
  dsimp only
  split
  · rfl
  · rename_i hp
    have hname : (g.info t).name ≠ "" := hn.resolve_right (by simp [hp])
    simp [hname]

theorem resolveWithin_eq (n : Nat) (r : TypeRef) :
    g'.resolveWithin n r = g.resolveWithin n r := by
  induction n generalizing r with
  | zero => rfl
  | succ n ih =>
    simp only [resolveWithin]
    obtain hk | ⟨⟨fs, hk⟩, fs', hk'⟩ := h.kind r
    · rw [hk]
      cases (g.info r).kind with
      | optional e => exact ih e
      | primitive _ | any | seq _ | map _ _ | struct _ | enumeration _ => rfl
    · rw [hk, hk']

theorem embeddedWithin_eq (n : Nat) (r : TypeRef) :
    g'.embeddedWithin s n r = g.embeddedWithin s n r := by
  rw [embeddedWithin, h.resolveWithin_eq, embeddedWithin]

theorem resolves {r t : TypeRef} (hr : g.Resolves r t) : g'.Resolves r t := by
  induction hr with
  | done hd =>
    apply Resolves.done
    rw [h.isOptional_eq, hd]
  | optional hk _ ih => exact .optional (h.kind_eq hk rfl) ih

theorem contains {t u : TypeRef} (hu : g.Contains s t u) : g'.Contains s t u := by
  obtain ⟨e, rfl, hk | hk | ⟨k, hk⟩⟩ := hu
  · exact ⟨e, rfl, Or.inl (h.kind_eq hk rfl)⟩
  · exact ⟨e, rfl, Or.inr (Or.inl (h.kind_eq hk rfl))⟩
  · exact ⟨e, rfl, Or.inr (Or.inr ⟨k, h.kind_eq hk rfl⟩)⟩

theorem addField_eq (o : ObjectDescriptor) (f : Field) (p : Property) :
    g'.addField o f p = g.addField o f p := by
  simp only [addField, h.isOptional_eq]

theorem noteField_eq (n : Nat) (l : Landmarks) (f : Field) :
    g'.noteField n l f = g.noteField n l f := by
  simp only [noteField, h.resolveWithin_eq]

theorem document_eq (root : TypeRef) (o : ObjectDescriptor) (a : Assembly) :
    document s (g'.info root) o a = document s (g.info root) o a := by
  rw [h.info root]
  rfl

end

def SameClasses (s : Settings) (g g' : TypeGraph) : Prop :=
  ∀ t, s.manualType? t = none → s.structJavaType (g'.info t) = s.structJavaType (g.info t)

section

variable (h : g.Resembles g') (hj : SameClasses s g g')
include h hj

theorem javaTypeWithin_eq (n : Nat) (t : TypeRef) :
    g'.javaTypeWithin s n t = g.javaTypeWithin s n t := by
  induction n generalizing t with
  | zero => rfl
  | succ n ih =>
    simp only [javaTypeWithin]
    cases hm : s.manualType? t with
    | some j => rfl
    | none =>
      obtain hk | ⟨⟨fs, hk⟩, fs', hk'⟩ := h.kind t
      · rw [hk]
        cases (g.info t).kind with
        | struct fs => exact congrArg some (hj t hm)
        | optional e => exact ih _
        | seq e => simp only [h.isByte_eq, ih]
        | map k v => simp only [ih]
        | primitive _ | any | enumeration _ => rfl
      · rw [hk, hk']
        exact congrArg some (hj t hm)

theorem entryWithin_eq (n : Nat) (v : Visited) :
    g'.entryWithin s n v = g.entryWithin s n v := by
  simp only [entryWithin, definitionWithin, h.javaTypeWithin_eq hj]
  rw [h.info v.type]
  rfl

end

end Resembles

variable (g s) in
def listRoleWithin (n : Nat) (metadata items : TypeRef) : Option Role := do
  match (g.info items).kind with
  | .seq e =>
    if metadata = .listMeta then
      return .list (← g.javaTypeWithin s n (s.substitute e))
    else return .plain
  | _ => return .plain

variable (g s) in
def roleOfWithin (n : Nat) (fields : List Field) : Option Role := do
  let l ← fields.foldlM (g.noteField n) {}
  if ¬(l.apiVersion ∧ l.kind) then return .plain
  else if l.metadata = some .objectMeta then return .resource
  else
    match l.metadata, l.items with
    | some metadata, some r =>
      let items ← g.embeddedWithin s n r
      g.listRoleWithin s n metadata items
    | _, _ => return .plain

theorem roleWithin_eq_bind (n : Nat) (t : TypeRef) :
    g.roleWithin s n t = (g.fieldsWithin s n t).bind (g.roleOfWithin s n) :=
  rfl

theorem listRoleWithin_keeps {n m : Nat} (h : n ≤ m) (metadata items : TypeRef) :
    Keeps (g.listRoleWithin s n metadata items) (g.listRoleWithin s m metadata items) := by
  unfold listRoleWithin
  split
  · split
    · exact (javaTypeWithin_keeps g s h _).bind fun item => Keeps.refl _
    · exact Keeps.refl _
  · exact Keeps.refl _

theorem roleOfWithin_keeps {n m : Nat} (h : n ≤ m) (fields : List Field) :
    Keeps (g.roleOfWithin s n fields) (g.roleOfWithin s m fields) := by
  unfold roleOfWithin
  refine (Keeps.foldlM _ (noteField_keeps g h) _).bind fun l => ?_
  split
  · exact Keeps.refl _
  split
  · exact Keeps.refl _
  split
  · exact (embeddedWithin_keeps g s h _).bind fun items => listRoleWithin_keeps h _ items
  · exact Keeps.refl _

namespace Resembles

section

variable (h : g.Resembles g') (hj : SameClasses s g g')
include h hj

theorem listRoleWithin_eq (n : Nat) (metadata items : TypeRef) :
    g'.listRoleWithin s n metadata items = g.listRoleWithin s n metadata items := by
  simp only [listRoleWithin, h.javaTypeWithin_eq hj]
  obtain hk | ⟨⟨fs, hk⟩, fs', hk'⟩ := h.kind items
  · rw [hk]
  · rw [hk, hk']

theorem roleOfWithin_eq (n : Nat) (fields : List Field) :
    g'.roleOfWithin s n fields = g.roleOfWithin s n fields := by
  have hnote : g'.noteField n = g.noteField n :=
    funext fun l => funext fun f => h.noteField_eq n l f
  simp only [roleOfWithin, hnote, h.embeddedWithin_eq, h.listRoleWithin_eq hj]

end

end Resembles

end TypeGraph

end ModelSchema
