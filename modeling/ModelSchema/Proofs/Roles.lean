import ModelSchema.Proofs.Definitions
import ModelSchema.Proofs.Substitution

namespace ModelSchema

/-- `f` is the last field called `name`. -/
def LastNamed (name : String) (fields : List Field) (f : Field) : Prop :=
  ∃ before after, fields = before ++ f :: after ∧ f.name = name ∧ ∀ x ∈ after, x.name ≠ name

theorem LastNamed.mem {name : String} {fields : List Field} {f : Field}
    (h : LastNamed name fields f) : f ∈ fields := by
  obtain ⟨before, after, rfl, _⟩ := h
  simp

section

variable {α β : Type} {step : α → Field → Option α} {look : α → β} {name : String}
  {fields : List Field} {a b : α}
  (hstep : ∀ {f : Field} {c c' : α}, step c f = some c' → f.name ≠ name → look c' = look c)
include hstep

theorem foldlM_keeps_look (h : fields.foldlM step a = some b) (hn : ∀ f ∈ fields, f.name ≠ name) :
    look b = look a := by
  refine Proofs.Bounds.foldlM_property (P := fun c => look c = look a) h ?_ rfl
  intro f hf c c' hc hlook
  exact (hstep hc (hn f hf)).trans hlook

theorem LastNamed.foldlM_look {f : Field} (hf : LastNamed name fields f)
    (h : fields.foldlM step a = some b) :
    f.name = name ∧ ∃ c c', step c f = some c' ∧ look b = look c' := by
  obtain ⟨before, after, rfl, hname, hafter⟩ := hf
  rw [List.foldlM_append] at h
  obtain ⟨c, _, h⟩ := Option.bind_eq_some_iff.mp h
  rw [List.foldlM_cons] at h
  obtain ⟨c', hc, h⟩ := Option.bind_eq_some_iff.mp h
  exact ⟨hname, c, c', hc, foldlM_keeps_look hstep h hafter⟩

end

namespace TypeGraph

variable (g : TypeGraph) (s : Settings)

/-- The metadata of the struct `t` is declared as object metadata, perhaps optional. -/
def DeclaresMetadata (t : TypeRef) : Prop :=
  ∃ n fields f, g.fieldsWithin s n t = some fields ∧ LastNamed "metadata" fields f ∧
    g.Resolves f.type .objectMeta

/-- The property refers to the definition of `u`, in a document generated from `root`. -/
def PointsAt (root : TypeRef) (q : Property) (u : TypeRef) : Prop :=
  g.Reachable s (s.substitute root) u ∧
    q.reference = some (Property.definitionsPath ++ s.qualifiedName (g.info u))

end TypeGraph

namespace Proofs.Roles

open Bounds Reading Reach Substitution

theorem exists_lastNamed {name : String} {fields : List Field} (h : ∃ f ∈ fields, f.name = name) :
    ∃ f, LastNamed name fields f := by
  induction fields with
  | nil => simp at h
  | cons g fields ih =>
    by_cases hl : ∃ f ∈ fields, f.name = name
    · obtain ⟨f, before, after, rfl, hf⟩ := ih hl
      exact ⟨f, g :: before, after, rfl, hf⟩
    · obtain ⟨f, hf, hn⟩ := h
      obtain rfl | hf := List.mem_cons.mp hf
      · exact ⟨f, [], fields, rfl, hn, fun x hx he => hl ⟨x, hx, he⟩⟩
      · exact absurd ⟨f, hf, hn⟩ hl

section

variable {g : TypeGraph} {s : Settings} {n : Nat}

section

variable {f : Field} {fields : List Field} {l l' : Landmarks}

theorem noteField_flags (h : g.noteField n l f = some l') :
    (l'.apiVersion ↔ l.apiVersion ∨ "apiVersion" = f.name) ∧
      (l'.kind ↔ l.kind ∨ "kind" = f.name) := by
  obtain ⟨hf, rfl⟩ | ⟨hf, rfl⟩ | ⟨hf, t, _, rfl⟩ | ⟨hf, rfl⟩ | ⟨hf, rfl⟩ := noteField_cases h
  · simp [hf]
  · simp [hf]
  · simp [hf]
  · simp [hf]
  · obtain ⟨ha, hk, _⟩ : f.name ≠ "apiVersion" ∧ f.name ≠ "kind" ∧ _ := by simpa using hf
    simp [Ne.symm ha, Ne.symm hk]

theorem noteField_metadata (h : g.noteField n l f = some l') :
    (f.name = "metadata" → ∃ t, g.resolveWithin n f.type = some t ∧ l'.metadata = some t) ∧
      (f.name ≠ "metadata" → l'.metadata = l.metadata) := by
  obtain ⟨hf, rfl⟩ | ⟨hf, rfl⟩ | ⟨hf, t, ht, rfl⟩ | ⟨hf, rfl⟩ | ⟨hf, rfl⟩ := noteField_cases h
  · simp [hf]
  · simp [hf]
  · exact ⟨fun _ => ⟨t, ht, rfl⟩, fun hne => absurd hf hne⟩
  · simp [hf]
  · exact ⟨fun he => absurd hf (by simp [he]), fun _ => rfl⟩

theorem notes_flags (h : fields.foldlM (g.noteField n) l = some l') :
    (l'.apiVersion ↔ l.apiVersion ∨ "apiVersion" ∈ fields.map (·.name)) ∧
      (l'.kind ↔ l.kind ∨ "kind" ∈ fields.map (·.name)) := by
  induction fields generalizing l with
  | nil =>
    cases h
    simp
  | cons f fields ih =>
    rw [List.foldlM_cons] at h
    obtain ⟨l₁, h₁, h⟩ := Option.bind_eq_some_iff.mp h
    obtain ⟨ha, hk⟩ := noteField_flags h₁
    obtain ⟨ha', hk'⟩ := ih h
    rw [ha', ha, hk', hk]
    simp [or_assoc]

theorem notes_metadata (h : fields.foldlM (g.noteField n) l = some l')
    (hf : LastNamed "metadata" fields f) :
    ∃ t, g.resolveWithin n f.type = some t ∧ l'.metadata = some t := by
  obtain ⟨hname, _, _, hnote, hlook⟩ := hf.foldlM_look (fun hnote => (noteField_metadata hnote).2) h
  obtain ⟨t, ht, hm⟩ := (noteField_metadata hnote).1 hname
  exact ⟨t, ht, hlook.trans hm⟩

theorem notes_metadata_iff {t : TypeRef} (h : fields.foldlM (g.noteField n) {} = some l) :
    l.metadata = some t ↔ ∃ f, LastNamed "metadata" fields f ∧ g.Resolves f.type t := by
  constructor
  · intro hm
    by_cases hex : ∃ f ∈ fields, f.name = "metadata"
    · obtain ⟨f, hf⟩ := exists_lastNamed hex
      obtain ⟨u, hu, hmu⟩ := notes_metadata h hf
      cases hm.symm.trans hmu
      exact ⟨f, hf, (resolves_iff g hu).mpr rfl⟩
    · have hkeep : l.metadata = ({} : Landmarks).metadata :=
        foldlM_keeps_look (fun hnote => (noteField_metadata hnote).2) h fun f hf hn =>
          hex ⟨f, hf, hn⟩
      cases hm.symm.trans hkeep
  · rintro ⟨f, hf, hr⟩
    obtain ⟨u, hu, hmu⟩ := notes_metadata h hf
    rw [hmu, (resolves_iff g hu).mp hr]

end

theorem role_resource_iff {t : TypeRef} {role : Role} {fields : List Field}
    (hfields : g.fieldsWithin s n t = some fields) (h : g.roleWithin s n t = some role) :
    role = .resource ↔ "apiVersion" ∈ fields.map (·.name) ∧ "kind" ∈ fields.map (·.name) ∧
      ∃ f, LastNamed "metadata" fields f ∧ g.Resolves f.type .objectMeta := by
  unfold TypeGraph.roleWithin at h
  simp only [hfields, Option.bind_eq_bind, Option.bind_some] at h
  obtain ⟨l, hl, h⟩ := Option.bind_eq_some_iff.mp h
  obtain ⟨ha, hk⟩ := notes_flags hl
  simp only [Bool.false_eq_true, false_or] at ha hk
  rw [← notes_metadata_iff hl, ← ha, ← hk]
  split at h
  · rename_i hnot
    cases h
    simp only [reduceCtorEq, false_iff]
    exact fun ⟨ha, hk, _⟩ => hnot ⟨ha, hk⟩
  rename_i hboth
  obtain ⟨ha, hk⟩ := not_not.mp hboth
  split at h
  · rename_i hm
    cases h
    simp [ha, hk, hm]
  · rename_i hm
    have hne : role ≠ .resource := by
      rintro rfl
      split at h
      · obtain ⟨items, _, h⟩ := Option.bind_eq_some_iff.mp h
        split at h
        · split at h
          · obtain ⟨item, _, h⟩ := Option.bind_eq_some_iff.mp h
            cases h
          · cases h
        · cases h
      · cases h
    simp [hne, hm]

theorem require_properties (o : ObjectDescriptor) (name : String) :
    (o.require name).properties = o.properties := by
  unfold ObjectOf.require
  split <;> rfl

theorem addReadField_properties {o o' : ObjectDescriptor} {f : Field}
    (h : g.addReadField s n o f = some o') :
    ∃ x, g.exprWithin s n f.type = some x ∧ o'.properties = Entries.insert o.properties f.name
      ((x.property g s f.omitEmpty).described f.description) := by
  obtain ⟨x, hx, rfl⟩ := Option.map_eq_some_iff.mp h
  refine ⟨x, hx, ?_⟩
  unfold TypeGraph.addField
  dsimp only
  split
  · exact require_properties _ _
  · rfl

section

variable {fields : List Field} {o o' : ObjectDescriptor} {name : String}

theorem fields_keys (h : fields.foldlM (g.addReadField s n) o = some o') :
    name ∈ Entries.keys o'.properties ↔
      name ∈ Entries.keys o.properties ∨ name ∈ fields.map (·.name) := by
  induction fields generalizing o with
  | nil =>
    cases h
    simp
  | cons f fields ih =>
    rw [List.foldlM_cons] at h
    obtain ⟨o₁, h₁, h⟩ := Option.bind_eq_some_iff.mp h
    obtain ⟨x, _, hp⟩ := addReadField_properties h₁
    rw [ih h, hp, Entries.mem_keys_insert]
    simp [or_assoc, or_left_comm]

theorem addReadField_get?_of_ne {f : Field} (h : g.addReadField s n o f = some o')
    (hne : f.name ≠ name) :
    Entries.get? o'.properties name = Entries.get? o.properties name := by
  obtain ⟨x, _, hproperties⟩ := addReadField_properties h
  rw [hproperties, Entries.get?_insert_of_ne _ (Ne.symm hne)]

theorem fields_get? {f : Field} (h : fields.foldlM (g.addReadField s n) o = some o')
    (hf : LastNamed name fields f) :
    ∃ x, g.exprWithin s n f.type = some x ∧ Entries.get? o'.properties name =
      some ((x.property g s f.omitEmpty).described f.description) := by
  obtain ⟨rfl, _, _, hadd, hlook⟩ := hf.foldlM_look addReadField_get?_of_ne h
  obtain ⟨x, hx, hp⟩ := addReadField_properties hadd
  exact ⟨x, hx, by rw [hlook, hp, Entries.get?_insert_self]⟩

end

section

variable (o : ObjectDescriptor) {name other : String} (value : String)

theorem pin_keys : Entries.keys (pin o name value).properties = Entries.keys o.properties := by
  unfold pin
  split
  · rename_i p hp
    rw [require_properties]
    have hmem := (Entries.get?_isSome_iff _ _).mp (Option.isSome_of_eq_some hp)
    exact (Entries.keys_insert _ _ _).trans (if_pos hmem)
  · rfl

theorem pin_get? (h : other ≠ name) :
    Entries.get? (pin o name value).properties other = Entries.get? o.properties other := by
  unfold pin
  split
  · rw [require_properties]
    exact Entries.get?_insert_of_ne _ h
  · rfl

theorem pinned_keys (s : Settings) (t : TypeInfo) (role : Role) :
    Entries.keys (s.pinned t role o).properties = Entries.keys o.properties := by
  unfold Settings.pinned
  split
  · rfl
  split
  · rw [pin_keys, pin_keys]
  · rfl

theorem pinned_get? (s : Settings) (t : TypeInfo) (role : Role) (ha : other ≠ "apiVersion")
    (hk : other ≠ "kind") :
    Entries.get? (s.pinned t role o).properties other = Entries.get? o.properties other := by
  unfold Settings.pinned
  split
  · rfl
  split
  · rw [pin_get? _ _ hk, pin_get? _ _ ha]
  · rfl

end

theorem described_reference (p : Property) (text : Option String) :
    (p.described text).reference = p.reference := by
  cases text <;> rfl

theorem property_reference_iff {x : TypeExpr} {omitEmpty : Bool} {path : String} :
    (x.property g s omitEmpty).reference = some path ↔
      ∃ u, x = .struct u ∧ path = Property.definitionsPath ++ s.qualifiedName (g.info u) := by
  cases x with
  | struct t => simp [TypeExpr.property, Property.referenceTo, eq_comm]
  | primitive p => cases p <;> simp [TypeExpr.property, Property.ofPrimitive, Property.typed,
      Property.withExistingJavaType]
  | manual _ | any | enumeration _ | bytes | list _ | map _ =>
    simp [TypeExpr.property, Property.ofManual, Property.ofAny, Property.ofEnumeration,
      Property.ofBytes, Property.ofList, Property.ofMap, Property.typed,
      Property.withExistingJavaType]

theorem resolves_not_optional {r t : TypeRef} (h : g.Resolves r t) :
    (g.info t).kind.isOptional = false := by
  induction h with
  | done hk => exact hk
  | optional _ _ ih => exact ih

theorem not_substitute_struct {t u : TypeRef}
    (h : (g.info (s.substitute t)).kind.isStruct = false) :
    ¬(s.substitute t = u ∧ (g.info u).kind.isStruct) := by
  rintro ⟨rfl, hu⟩
  simp [h] at hu

theorem resolves_unique {r t u : TypeRef} (h : g.Resolves r t) (h' : g.Resolves r u) : t = u := by
  induction h with
  | done hk =>
    cases h' with
    | done _ => rfl
    | optional hk' _ => simp [hk', Kind.isOptional] at hk
  | optional hk _ ih =>
    cases h' with
    | done hk' => simp [hk, Kind.isOptional] at hk'
    | optional hk' hu =>
      rw [hk, Kind.optional.injEq] at hk'
      exact ih (hk' ▸ hu)

section

variable (hm : s.manualTypes = []) (h : KeepsOptional g s)
include hm h

theorem exprWithin_resolved {r t : TypeRef} (hr : g.Resolves r t) {n : Nat} {x : TypeExpr}
    (hx : g.exprWithin s n r = some x) : ∃ k, g.exprWithin s k t = some x := by
  induction hr generalizing n with
  | done _ => exact ⟨n, hx⟩
  | optional hk _ ih =>
    cases n with
    | zero => cases hx
    | succ n =>
      unfold TypeGraph.exprWithin at hx
      simp only [substitute_of_optional h hk, Settings.manualType?, hm, List.reverse_nil,
        List.lookup_nil, hk] at hx
      exact ih hx

theorem exprWithin_struct_iff {r t u : TypeRef} (hr : g.Resolves r t) {n : Nat} {x : TypeExpr}
    (hx : g.exprWithin s n r = some x) :
    x = .struct u ↔ s.substitute t = u ∧ (g.info u).kind.isStruct := by
  obtain ⟨k, hx⟩ := exprWithin_resolved hm h hr hx
  have ho := (isOptional_substitute h t).trans (resolves_not_optional hr)
  cases k with
  | zero => cases hx
  | succ k =>
    unfold TypeGraph.exprWithin at hx
    simp only [Settings.manualType?, hm, List.reverse_nil, List.lookup_nil] at hx
    cases hk : (g.info (s.substitute t)).kind with
    | optional e => simp [hk, Kind.isOptional] at ho
    | struct fs =>
      simp only [hk, Option.some.injEq] at hx
      subst hx
      simp only [TypeExpr.struct.injEq]
      exact ⟨fun he => ⟨he, by rw [← he, hk]; rfl⟩, fun he => he.1⟩
    | seq e =>
      refine iff_of_false ?_ (not_substitute_struct (by rw [hk]; rfl))
      rintro rfl
      simp only [hk] at hx
      split at hx
      · cases hx
      · obtain ⟨y, _, hy⟩ := Option.map_eq_some_iff.mp hx
        cases hy
    | map key v =>
      refine iff_of_false ?_ (not_substitute_struct (by rw [hk]; rfl))
      rintro rfl
      simp only [hk] at hx
      obtain ⟨y, _, hy⟩ := Option.map_eq_some_iff.mp hx
      cases hy
    | primitive p | any | enumeration vs =>
      refine iff_of_false ?_ (not_substitute_struct (by rw [hk]; rfl))
      rintro rfl
      simp [hk] at hx

end

theorem defines_fields {t : TypeRef} {p : Property} (h : g.Defines s t p) :
    ∃ n fields o role, g.fieldsWithin s n t = some fields ∧
      fields.foldlM (g.addReadField s n) .open = some o ∧ g.roleWithin s n t = some role ∧
      p.object = some (s.pinned (g.info t) role o) ∧ p.java.interfaces = role.interfaces := by
  obtain ⟨n, o, role, j, ho, hrole, _, rfl⟩ := Definitions.defines_iff.mp h
  obtain ⟨fields, hfields, ho⟩ := Option.bind_eq_some_iff.mp ho
  exact ⟨n, fields, o, role, hfields, ho, hrole, rfl, rfl⟩

theorem interfaces_resource_iff (role : Role) :
    role.interfaces = [Java.hasMetadata] ↔ role = .resource := by
  cases role <;> simp [Role.interfaces, Java.kubernetesResource, Java.hasMetadata]

theorem declaresMetadata_iff {t : TypeRef} {fields : List Field}
    (h : g.fieldsWithin s n t = some fields) : g.DeclaresMetadata s t ↔
      ∃ f, LastNamed "metadata" fields f ∧ g.Resolves f.type .objectMeta := by
  constructor
  · rintro ⟨m, fields', f, hfields, hf⟩
    cases unique (fun hle => fieldsWithin_keeps g s hle t) h hfields
    exact ⟨f, hf⟩
  · rintro ⟨f, hf⟩
    exact ⟨n, fields, f, h, hf⟩

theorem metadata_resolved {t : TypeRef} {fields : List Field} {role : Role} {f : Field}
    (hfields : g.fieldsWithin s n t = some fields) (h : g.roleWithin s n t = some role)
    (hf : LastNamed "metadata" fields f) : ∃ u, g.Resolves f.type u := by
  unfold TypeGraph.roleWithin at h
  simp only [hfields, Option.bind_eq_bind, Option.bind_some] at h
  obtain ⟨l, hl, _⟩ := Option.bind_eq_some_iff.mp h
  obtain ⟨u, hu, _⟩ := notes_metadata hl hf
  exact ⟨u, (resolves_iff g hu).mpr rfl⟩

theorem struct_metadata_iff (hm : s.manualTypes = []) (hopt : KeepsOptional g s)
    (hmeta : ¬s.Touches .objectMeta) (hstruct : (g.info .objectMeta).kind.isStruct) {r u : TypeRef}
    {x : TypeExpr} (hx : g.exprWithin s n r = some x) (hu : g.Resolves r u) :
    x = .struct .objectMeta ↔ g.Resolves r .objectMeta := by
  rw [exprWithin_struct_iff hm hopt hu hx, substitute_eq_iff hmeta]
  constructor
  · rintro ⟨rfl, _⟩
    exact hu
  · intro hr
    exact ⟨resolves_unique hu hr, hstruct⟩

theorem pointsAt_iff {root t u : TypeRef} {fields : List Field} {f : Field} {x : TypeExpr}
    (hnames : Set.InjOn (fun v => s.qualifiedName (g.info v))
      {v | g.Reachable s (s.substitute root) v})
    (ht : g.Reachable s (s.substitute root) t) (hfields : g.fieldsWithin s n t = some fields)
    (hf : f ∈ fields) (hx : g.exprWithin s n f.type = some x) :
    g.PointsAt s root ((x.property g s f.omitEmpty).described f.description) u ↔
      x = .struct u := by
  have hreach : ∀ {v}, x = .struct v → g.Reachable s (s.substitute root) v := by
    rintro v rfl
    exact ht.tail ⟨f, (hasField_iff g s hfields).mpr hf, (leads_iff g s hx).mpr rfl⟩
  rw [TypeGraph.PointsAt, described_reference, property_reference_iff]
  constructor
  · rintro ⟨hu, v, hv, hpath⟩
    obtain rfl := hnames hu (hreach hv) ((String.append_right_inj _).mp hpath)
    exact hv
  · rintro hu
    exact ⟨hreach hu, u, hu, rfl⟩

/-- The definition of a struct is that of a resource if the struct has a version and a kind, and
its metadata is declared as object metadata. Where neither optional types nor object metadata take
part in the substitution and no type is manual, the declaration can be read off the property: it
refers to the definition of object metadata. -/
theorem resource_iff {root : TypeRef} {d : Document}
    (h : (g.generateWithin s n root).result = .ok d) {t : TypeRef}
    (ht : g.Reachable s (s.substitute root) t) :
    ∃ p o, Entries.get? d.definitions (s.qualifiedName (g.info t)) = some p ∧ p.object = some o ∧
      (p.java.interfaces = [Java.hasMetadata] ↔
        "apiVersion" ∈ Entries.keys o.properties ∧ "kind" ∈ Entries.keys o.properties ∧
          g.DeclaresMetadata s t) ∧
      (s.manualTypes = [] → KeepsOptional g s → ¬s.Touches .objectMeta →
        (g.info .objectMeta).kind.isStruct →
        (p.java.interfaces = [Java.hasMetadata] ↔
          "apiVersion" ∈ Entries.keys o.properties ∧ "kind" ∈ Entries.keys o.properties ∧
            ∃ q, Entries.get? o.properties "metadata" = some q ∧
              g.PointsAt s root q .objectMeta)) := by
  obtain ⟨_, pr, es, a, hg⟩ := Definitions.generateWithin_ok h
  obtain ⟨p, hp⟩ := hg.defined ht
  obtain ⟨m, fields, o, role, hfields, ho, hrole, hobject, hinterfaces⟩ := defines_fields hp
  have hkey : ∀ name, name ∈ Entries.keys (s.pinned (g.info t) role o).properties ↔
      name ∈ fields.map (·.name) := by
    intro name
    rw [pinned_keys, fields_keys ho]
    exact or_iff_right (by simp [ObjectOf.open, Entries.keys])
  have hresource : p.java.interfaces = [Java.hasMetadata] ↔
      "apiVersion" ∈ Entries.keys (s.pinned (g.info t) role o).properties ∧
        "kind" ∈ Entries.keys (s.pinned (g.info t) role o).properties ∧
          g.DeclaresMetadata s t := by
    rw [hinterfaces, interfaces_resource_iff, role_resource_iff hfields hrole, hkey, hkey,
      declaresMetadata_iff hfields]
  refine ⟨p, _, hg.get?_iff.mpr ⟨t, ht, rfl, hp⟩, hobject, hresource, ?_⟩
  intro hm hopt hmeta hstruct
  rw [hresource, pinned_get? _ _ _ _ (by decide) (by decide), declaresMetadata_iff hfields]
  refine and_congr_right fun _ => and_congr_right fun _ => ?_
  constructor
  · rintro ⟨f, hf, hr⟩
    obtain ⟨x, hx, hq⟩ := fields_get? ho hf
    exact ⟨_, hq, (pointsAt_iff hg.names_injective ht hfields hf.mem hx).mpr
      ((struct_metadata_iff hm hopt hmeta hstruct hx hr).mpr hr)⟩
  · rintro ⟨q, hq, hpoints⟩
    have hname := (Entries.get?_isSome_iff _ _).mp (Option.isSome_of_eq_some hq)
    obtain hname | hname := (fields_keys ho).mp hname
    · cases hname
    obtain ⟨f, hf⟩ := exists_lastNamed (List.mem_map.mp hname)
    obtain ⟨x, hx, hqx⟩ := fields_get? ho hf
    cases hq.symm.trans hqx
    obtain ⟨v, hv⟩ := metadata_resolved hfields hrole hf
    exact ⟨f, hf, (struct_metadata_iff hm hopt hmeta hstruct hx hv).mp
      ((pointsAt_iff hg.names_injective ht hfields hf.mem hx).mp hpoints)⟩

def cluster : TypeGraph where
  info
    | .declared "Root" => ⟨"Root", "core", none, .struct [
        { name := "pod", type := .declared "Pod" },
        { name := "copy", type := .declared "Copy" }]⟩
    | .declared "Pod" => ⟨"Pod", "core", none, .struct [
        { name := "apiVersion", type := .declared "text" },
        { name := "kind", type := .declared "text" },
        { name := "metadata", type := .standard "ObjectMeta" }]⟩
    | .declared "Copy" => ⟨"Copy", "core", none, .struct [
        { name := "apiVersion", type := .declared "text" },
        { name := "kind", type := .declared "text" },
        { name := "metadata", type := .declared "Meta" }]⟩
    | .declared "Meta" => ⟨"Meta", "core", none, .struct []⟩
    | .standard "ObjectMeta" => ⟨"ObjectMeta", "meta", none, .struct []⟩
    | .declared "text" => ⟨"", "", none, .primitive .string⟩
    | _ => ⟨"", "", none, .any⟩
  refs := [.declared "Root", .declared "Pod", .declared "Copy", .declared "Meta",
    .standard "ObjectMeta", .declared "text"]

theorem cluster_pod_resource : ∃ d p o q,
    (cluster.generate {} (.declared "Root")).result = .ok d ∧
      Entries.get? d.definitions "core_Pod" = some p ∧ p.object = some o ∧
      p.java.interfaces = [Java.hasMetadata] ∧ Entries.get? o.properties "metadata" = some q ∧
      cluster.PointsAt {} (.declared "Root") q .objectMeta := by
  obtain ⟨d, p, hd, hp, hj⟩ : ∃ d p, (cluster.generate {} (.declared "Root")).result = .ok d ∧
      Entries.get? d.definitions "core_Pod" = some p ∧ p.java.interfaces = [Java.hasMetadata] :=
    ⟨_, _, rfl, rfl, rfl⟩
  have hreach : cluster.Reachable {} (.declared "Root") (.declared "Pod") :=
    .single ⟨{ name := "pod", type := .declared "Pod" }, .own List.mem_cons_self rfl,
      .struct (s := {}) (r := .declared "Pod") rfl rfl⟩
  have htouches : ∀ t, ¬({} : Settings).Touches t := by
    rintro t ⟨r, u, hu, _⟩
    cases hu
  obtain ⟨p', o, hp', ho, _, hiff⟩ := resource_iff hd hreach
  cases hp.symm.trans hp'
  obtain ⟨_, _, q, hq, hpoints⟩ :=
    (hiff rfl (fun t ht => absurd ht (htouches t)) (htouches _) rfl).mp hj
  exact ⟨d, p, o, q, hd, hp, ho, hj, hq, hpoints⟩

/-- With object metadata replaced by texts, and the copy's metadata by object metadata, the pod
stays a resource without metadata, and the copy has metadata without being a resource. -/
theorem cluster_roles_ignore_substitution : ∃ d pod copy podObject copyObject q r,
    let s : Settings := { substitutions :=
      [(.standard "ObjectMeta", .declared "text"), (.declared "Meta", .standard "ObjectMeta")] }
    (cluster.generate s (.declared "Root")).result = .ok d ∧
      Entries.get? d.definitions "core_Pod" = some pod ∧ pod.object = some podObject ∧
      pod.java.interfaces = [Java.hasMetadata] ∧
      Entries.get? podObject.properties "metadata" = some q ∧ q.reference = none ∧
      Entries.get? d.definitions "core_Copy" = some copy ∧ copy.object = some copyObject ∧
      copy.java.interfaces = [Java.kubernetesResource] ∧
      "apiVersion" ∈ Entries.keys copyObject.properties ∧
      "kind" ∈ Entries.keys copyObject.properties ∧
      Entries.get? copyObject.properties "metadata" = some r ∧
      r.reference = some "#/definitions/meta_ObjectMeta" :=
  ⟨_, _, _, _, _, _, _, rfl, rfl, rfl, rfl, rfl, rfl, rfl, rfl, rfl, by decide, by decide, rfl, rfl⟩

end

end Proofs.Roles

end ModelSchema
