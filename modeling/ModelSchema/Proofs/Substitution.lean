import ModelSchema.Proofs.Reach
import ModelSchema.Schema.Generate

namespace ModelSchema

def Field.mapRef (f : TypeRef → TypeRef) (x : Field) : Field :=
  { x with type := f x.type }

namespace Kind

variable (f : TypeRef → TypeRef) (k : Kind)

@[simp] theorem label_mapRefs : (k.mapRefs f).label = k.label := by
  cases k <;> rfl

@[simp] theorem isStruct_mapRefs : (k.mapRefs f).isStruct = k.isStruct := by
  cases k <;> rfl

@[simp] theorem isOptional_mapRefs : (k.mapRefs f).isOptional = k.isOptional := by
  cases k <;> rfl

@[simp] theorem isKey_mapRefs : (k.mapRefs f).isKey = k.isKey := by
  cases k with
  | primitive p => rfl
  | any | optional e | seq e | map k v | struct fs | enumeration vs => rfl

@[simp] theorem fields_mapRefs : (k.mapRefs f).fields = k.fields.map (Field.mapRef f) := by
  cases k <;> rfl

end Kind

def Settings.withoutSubstitutions (s : Settings) : Settings :=
  { s with substitutions := [] }

/-- `t` is replaced by another type or is put in the place of one. -/
def Settings.Touches (s : Settings) (t : TypeRef) : Prop :=
  ∃ r u, s.substitute? r = some u ∧ (t = r ∨ t = u)

namespace TypeGraph

/-- The same types, with every reference replaced by its substitute. -/
def substituted (g : TypeGraph) (s : Settings) : TypeGraph where
  info t := { g.info t with kind := (g.info t).kind.mapRefs s.substitute }
  refs := g.refs

end TypeGraph

namespace Proofs.Substitution

open Reach

@[simp] theorem substitute_withoutSubstitutions (s : Settings) (t : TypeRef) :
    s.withoutSubstitutions.substitute t = t :=
  rfl

section

variable (g : TypeGraph) (s : Settings) (t : TypeRef)

@[simp] theorem kind_substituted :
    ((g.substituted s).info t).kind = (g.info t).kind.mapRefs s.substitute :=
  rfl

@[simp] theorem displayName_substituted : (g.substituted s).displayName t = g.displayName t := by
  simp only [TypeGraph.displayName, TypeInfo.displayName, kind_substituted, Kind.label_mapRefs]
  rfl

@[simp] theorem isByte_substituted : (g.substituted s).isByte t = g.isByte t := by
  unfold TypeGraph.isByte
  rw [kind_substituted]
  cases (g.info t).kind <;> simp [Kind.mapRefs]

@[simp] theorem qualifiedName_substituted :
    s.withoutSubstitutions.qualifiedName ((g.substituted s).info t) =
      s.qualifiedName (g.info t) :=
  rfl

@[simp] theorem structJavaType_substituted :
    s.withoutSubstitutions.structJavaType ((g.substituted s).info t) =
      s.structJavaType (g.info t) := by
  have hf : ((g.substituted s).info t).kind.fields = [] ↔ (g.info t).kind.fields = [] := by
    simp
  simp only [Settings.structJavaType, hf]
  rfl

theorem javaTypeWithin_substituted (n : Nat) :
    (g.substituted s).javaTypeWithin s.withoutSubstitutions n t = g.javaTypeWithin s n t := by
  induction n generalizing t with
  | zero => rfl
  | succ n ih =>
    unfold TypeGraph.javaTypeWithin
    have hm : s.withoutSubstitutions.manualType? t = s.manualType? t := rfl
    rw [hm, kind_substituted]
    cases s.manualType? t with
    | some j => rfl
    | none => cases (g.info t).kind <;> simp [Kind.mapRefs, ih]

end

section

variable {g : TypeGraph} {s : Settings}

/-- Optional types take no part in the substitution. -/
def KeepsOptional (g : TypeGraph) (s : Settings) : Prop :=
  ∀ t, s.Touches t → (g.info t).kind.isOptional = false

theorem substitute_eq_or (s : Settings) (t : TypeRef) :
    s.substitute t = t ∨ s.Touches t ∧ s.Touches (s.substitute t) := by
  cases h : s.substitute? t with
  | none => exact Or.inl (by simp [Settings.substitute, h])
  | some u =>
    have hu : s.substitute t = u := by simp [Settings.substitute, h]
    exact Or.inr ⟨⟨t, u, h, Or.inl rfl⟩, ⟨t, u, h, Or.inr hu⟩⟩

theorem touches_mem {s : Settings} {t : TypeRef} (h : s.Touches t) :
    ∃ p ∈ s.substitutions, t = p.1 ∨ t = p.2 := by
  obtain ⟨r, u, hu, ht⟩ := h
  obtain ⟨before, after, hsplit, _⟩ := List.lookup_eq_some_iff.mp hu
  refine ⟨(r, u), List.mem_reverse.mp ?_, ht⟩
  rw [hsplit]
  simp

theorem isOptional_substitute (h : KeepsOptional g s) (t : TypeRef) :
    (g.info (s.substitute t)).kind.isOptional = (g.info t).kind.isOptional := by
  obtain he | ⟨ht, hu⟩ := substitute_eq_or s t
  · rw [he]
  · rw [h _ ht, h _ hu]

theorem substitute_of_optional (h : KeepsOptional g s) {t e : TypeRef}
    (hk : (g.info t).kind = .optional e) : s.substitute t = t := by
  obtain he | ⟨ht, _⟩ := substitute_eq_or s t
  · exact he
  · have hf := h t ht
    simp [hk, Kind.isOptional] at hf

theorem resolveWithin_succ (g : TypeGraph) (n : Nat) {t : TypeRef}
    (h : (g.info t).kind.isOptional = false) : g.resolveWithin (n + 1) t = some t := by
  unfold TypeGraph.resolveWithin
  cases hk : (g.info t).kind <;> simp_all [Kind.isOptional]

theorem resolveWithin_substituted (h : KeepsOptional g s) (n : Nat) (r : TypeRef) :
    (g.substituted s).resolveWithin n (s.substitute r) =
      (g.resolveWithin n r).map s.substitute := by
  induction n generalizing r with
  | zero => rfl
  | succ n ih =>
    cases ho : (g.info r).kind.isOptional with
    | false =>
      have hs : ((g.substituted s).info (s.substitute r)).kind.isOptional = false := by
        rw [kind_substituted, Kind.isOptional_mapRefs, isOptional_substitute h, ho]
      rw [resolveWithin_succ _ n ho, resolveWithin_succ _ n hs]
      rfl
    | true =>
      obtain ⟨e, hk⟩ : ∃ e, (g.info r).kind = .optional e := by
        cases hk : (g.info r).kind <;> simp_all [Kind.isOptional]
      rw [substitute_of_optional h hk]
      simp only [TypeGraph.resolveWithin, kind_substituted, hk, Kind.mapRefs]
      exact ih e

theorem embeddedWithin_substituted (h : KeepsOptional g s) (n : Nat) (r : TypeRef) :
    (g.substituted s).embeddedWithin s.withoutSubstitutions n (s.substitute r) =
      g.embeddedWithin s n r := by
  unfold TypeGraph.embeddedWithin
  rw [resolveWithin_substituted h]
  cases g.resolveWithin n r <;> rfl

-- The library relates folds and maps of one function; here both sides have a function of their own.
theorem mapM_semiconj {α α' β β' : Type} {f : α → Option β} {f' : α' → Option β'} {m : α → α'}
    {k : β → β'} (h : ∀ x, f' (m x) = (f x).map k) (xs : List α) :
    (xs.map m).mapM f' = (xs.mapM f).map (List.map k) := by
  induction xs with
  | nil => rfl
  | cons x xs ih =>
    rw [List.map_cons, List.mapM_cons, List.mapM_cons, h, ih]
    cases f x with
    | none => rfl
    | some y => cases xs.mapM f <;> rfl

theorem foldlM_semiconj {α α' β β' : Type} {f : β → α → Option β} {f' : β' → α' → Option β'}
    {m : α → α'} {k : β → β'} (h : ∀ b x, f' (k b) (m x) = (f b x).map k) (xs : List α) (b : β) :
    (xs.map m).foldlM f' (k b) = (xs.foldlM f b).map k := by
  induction xs generalizing b with
  | nil => rfl
  | cons x xs ih =>
    rw [List.map_cons, List.foldlM_cons, List.foldlM_cons, h]
    cases f b x with
    | none => rfl
    | some c => exact ih c

theorem fieldsWithin_substituted (h : KeepsOptional g s) (n : Nat) (t : TypeRef) :
    (g.substituted s).fieldsWithin s.withoutSubstitutions n t =
      (g.fieldsWithin s n t).map (List.map (Field.mapRef s.substitute)) := by
  induction n generalizing t with
  | zero => rfl
  | succ n ih =>
    unfold TypeGraph.fieldsWithin
    rw [kind_substituted, Kind.fields_mapRefs]
    have hpart : ∀ f : Field,
        (if (f.mapRef s.substitute).isInline then
          ((g.substituted s).embeddedWithin s.withoutSubstitutions n
            (f.mapRef s.substitute).type).bind
              ((g.substituted s).fieldsWithin s.withoutSubstitutions n)
          else some [f.mapRef s.substitute]) =
        (if f.isInline then (g.embeddedWithin s n f.type).bind (g.fieldsWithin s n)
          else some [f]).map (List.map (Field.mapRef s.substitute)) := by
      intro f
      have hi : (f.mapRef s.substitute).isInline = f.isInline := rfl
      have ht : (f.mapRef s.substitute).type = s.substitute f.type := rfl
      rw [hi, ht, embeddedWithin_substituted h]
      cases f.isInline with
      | false => rfl
      | true =>
        cases g.embeddedWithin s n f.type with
        | none => rfl
        | some e => exact ih e
    rw [mapM_semiconj hpart]
    simp only [Option.pure_def, Option.bind_eq_bind, Option.bind_map, Option.map_bind]
    exact congrArg _ (funext fun parts => congrArg some List.map_flatten.symm)

def Landmarks.mapRefs (f : TypeRef → TypeRef) (l : Landmarks) : Landmarks :=
  { l with metadata := l.metadata.map f, items := l.items.map f }

theorem noteField_substituted (h : KeepsOptional g s) (n : Nat) (l : Landmarks) (f : Field) :
    (g.substituted s).noteField n (Landmarks.mapRefs s.substitute l) (f.mapRef s.substitute) =
      (g.noteField n l f).map (Landmarks.mapRefs s.substitute) := by
  have hn : (f.mapRef s.substitute).name = f.name := rfl
  have ht : (f.mapRef s.substitute).type = s.substitute f.type := rfl
  unfold TypeGraph.noteField
  rw [hn, ht, resolveWithin_substituted h]
  split
  · rfl
  split
  · rfl
  split
  · cases g.resolveWithin n f.type <;> rfl
  split <;> rfl

theorem substitute_eq_iff {t u : TypeRef} (hu : ¬s.Touches u) : s.substitute t = u ↔ t = u := by
  obtain he | ⟨ht, hs⟩ := substitute_eq_or s t
  · rw [he]
  · constructor
    · exact fun h => absurd (h ▸ hs) hu
    · exact fun h => absurd (h ▸ ht) hu

theorem roleWithin_substituted (h : KeepsOptional g s) (ho : ¬s.Touches .objectMeta)
    (hl : ¬s.Touches .listMeta) (n : Nat) (t : TypeRef) :
    (g.substituted s).roleWithin s.withoutSubstitutions n t = g.roleWithin s n t := by
  unfold TypeGraph.roleWithin
  rw [fieldsWithin_substituted h]
  cases g.fieldsWithin s n t with
  | none => rfl
  | some fields =>
    have hnote := foldlM_semiconj (noteField_substituted h n) fields {}
    have hempty : Landmarks.mapRefs s.substitute {} = {} := rfl
    rw [hempty] at hnote
    simp only [Option.map_some, Option.bind_eq_bind, Option.bind_some, hnote]
    cases fields.foldlM (g.noteField n) {} with
    | none => rfl
    | some l =>
      simp only [Option.map_some, Option.bind_some, Landmarks.mapRefs]
      have hobject : l.metadata.map s.substitute = some .objectMeta ↔
          l.metadata = some .objectMeta := by
        simp [Option.map_eq_some_iff, substitute_eq_iff ho]
      simp only [hobject]
      cases l.metadata with
      | none => rfl
      | some metadata =>
        cases l.items with
        | none => rfl
        | some r =>
          simp only [Option.map_some, embeddedWithin_substituted h, substitute_eq_iff hl]
          cases g.embeddedWithin s n r with
          | none => rfl
          | some items =>
            simp only [Option.bind_some, kind_substituted, javaTypeWithin_substituted]
            cases (g.info items).kind <;> rfl

end

/-- The substitution leaves alone what is looked at before it is applied: the optional types, the
metadata types, and below `root` the optional layers of map keys. -/
structure Separable (g : TypeGraph) (s : Settings) (root : TypeRef) : Prop where
  optional : KeepsOptional g s
  objectMeta : ¬s.Touches .objectMeta
  listMeta : ¬s.Touches .listMeta
  key : ∀ {t k v}, g.Meets s root t → (g.info t).kind = .map k v →
    (g.info (s.substitute k)).kind.isOptional = false

section

variable {g : TypeGraph} {s : Settings} {root : TypeRef}

structure WalksAlike (g : TypeGraph) (s : Settings) (root : TypeRef) (n : Nat) : Prop where
  collect : ∀ {t o}, g.Meets s root t →
    Walk.collect (g.substituted s) s.withoutSubstitutions n t o = Walk.collect g s n t o
  collectField : ∀ {owner o f}, g.Meets s root f.type →
    Walk.collectField (g.substituted s) s.withoutSubstitutions n owner o (f.mapRef s.substitute) =
      Walk.collectField g s n owner o f
  describe : ∀ {owner r omitEmpty}, g.Meets s root r →
    Walk.describe (g.substituted s) s.withoutSubstitutions n owner (s.substitute r) omitEmpty =
      Walk.describe g s n owner r omitEmpty
  visit : ∀ {t}, g.Meets s root t →
    Walk.visit (g.substituted s) s.withoutSubstitutions n t = Walk.visit g s n t

-- The library has this congruence for arrays only.
theorem foldlM_congr {α β : Type} {f f' : β → α → Walk β} {xs : List α}
    (h : ∀ x ∈ xs, ∀ b, f' b x = f b x) (b : β) : xs.foldlM f' b = xs.foldlM f b := by
  induction xs generalizing b with
  | nil => rfl
  | cons x xs ih =>
    rw [List.foldlM_cons, List.foldlM_cons, h x List.mem_cons_self]
    exact bind_congr fun c => ih (fun y hy => h y (List.mem_cons_of_mem _ hy)) c

theorem collect_succ {n : Nat} (ih : WalksAlike g s root n) {t : TypeRef} {o : ObjectDescriptor}
    (ht : g.Meets s root t) :
    Walk.collect (g.substituted s) s.withoutSubstitutions (n + 1) t o =
      Walk.collect g s (n + 1) t o := by
  unfold Walk.collect
  rw [kind_substituted, Kind.fields_mapRefs, List.foldlM_map]
  refine foldlM_congr (fun f hf o => ih.collectField (ht.held ?_)) o
  cases hk : (g.info t).kind with
  | struct fs =>
    rw [hk] at hf
    exact List.mem_map_of_mem hf
  | primitive _ | any | optional _ | seq _ | map _ _ | enumeration _ =>
    rw [hk] at hf
    cases hf

theorem addField_substituted (h : KeepsOptional g s) (o : ObjectDescriptor) (f : Field)
    (p : Property) : (g.substituted s).addField o (f.mapRef s.substitute) p = g.addField o f p := by
  unfold TypeGraph.addField
  rw [kind_substituted, Kind.isOptional_mapRefs]
  simp only [Field.mapRef, isOptional_substitute h]

theorem collectField_succ (h : Separable g s root) {n : Nat} (ih : WalksAlike g s root n)
    {owner : TypeRef} {o : ObjectDescriptor} {f : Field} (hf : g.Meets s root f.type) :
    Walk.collectField (g.substituted s) s.withoutSubstitutions (n + 1) owner o
        (f.mapRef s.substitute) =
      Walk.collectField g s (n + 1) owner o f := by
  have hi : (f.mapRef s.substitute).isInline = f.isInline := rfl
  have ht : (f.mapRef s.substitute).type = s.substitute f.type := rfl
  have hn : (f.mapRef s.substitute).name = f.name := rfl
  have ho : (f.mapRef s.substitute).omitEmpty = f.omitEmpty := rfl
  unfold Walk.collectField
  simp only [hi, ht, hn, ho, embeddedWithin_substituted h.optional, displayName_substituted,
    kind_substituted, Kind.isStruct_mapRefs, addField_substituted h.optional]
  split
  · cases he : g.embeddedWithin s n f.type with
    | none => rfl
    | some e =>
      obtain ⟨t, hr, rfl⟩ := Option.map_eq_some_iff.mp he
      simp only [Walk.ofOption, pure_bind, ih.collect (meets_resolveWithin g s hf hr).substitute]
  · rw [ih.describe hf]

theorem key_substituted (h : Separable g s root) (n : Nat) {t k v : TypeRef}
    (ht : g.Meets s root t) (hk : (g.info t).kind = .map k v) :
    (g.substituted s).resolveWithin n (s.substitute k) =
      g.resolveWithin n (s.substitute k) := by
  cases n with
  | zero => rfl
  | succ n =>
    have hs := h.key ht hk
    rw [resolveWithin_succ g n hs]
    exact resolveWithin_succ _ n (by rwa [kind_substituted, Kind.isOptional_mapRefs])

theorem describe_succ (h : Separable g s root) {n : Nat} (ih : WalksAlike g s root n)
    {owner r : TypeRef} {omitEmpty : Bool} (hr : g.Meets s root r) :
    Walk.describe (g.substituted s) s.withoutSubstitutions (n + 1) owner (s.substitute r)
        omitEmpty =
      Walk.describe g s (n + 1) owner r omitEmpty := by
  have ht : g.Meets s root (s.substitute r) := hr.substitute
  have hm : s.withoutSubstitutions.manualType? (s.substitute r) =
    s.manualType? (s.substitute r) := rfl
  unfold Walk.describe
  simp only [substitute_withoutSubstitutions, hm]
  cases s.manualType? (s.substitute r) with
  | some javaType => rfl
  | none =>
    rw [kind_substituted]
    cases hk : (g.info (s.substitute r)).kind with
    | primitive p => rfl
    | any => rfl
    | enumeration values => rfl
    | optional e =>
      exact ih.describe (ht.held (by simp [hk, Kind.refs]))
    | seq e =>
      simp only [Kind.mapRefs, isByte_substituted]
      rw [ih.describe (ht.held (by simp [hk, Kind.refs]))]
    | map k v =>
      simp only [Kind.mapRefs]
      simp only [key_substituted h n ht hk, kind_substituted, Kind.isKey_mapRefs,
        javaTypeWithin_substituted, displayName_substituted]
      rw [ih.describe (ht.held (by simp [hk, Kind.refs]))]
    | struct fs =>
      simp only [Kind.mapRefs, ih.visit ht, javaTypeWithin_substituted,
        qualifiedName_substituted]

theorem visit_succ (h : Separable g s root) {n : Nat} (ih : WalksAlike g s root n) {t : TypeRef}
    (ht : g.Meets s root t) :
    Walk.visit (g.substituted s) s.withoutSubstitutions (n + 1) t = Walk.visit g s (n + 1) t := by
  have hp : ∀ role o, s.withoutSubstitutions.pinned ((g.substituted s).info t) role o =
    s.pinned (g.info t) role o := fun _ _ => rfl
  unfold Walk.visit
  simp only [qualifiedName_substituted, ih.collect ht, hp,
    roleWithin_substituted h.optional h.objectMeta h.listMeta]

theorem walksAlike (h : Separable g s root) (n : Nat) : WalksAlike g s root n := by
  -- By induction on the bound. Only types that are met below `root` are ever walked, and of those
  -- the map keys are known to have no optional layers.
  induction n with
  | zero => exact ⟨fun _ => rfl, fun _ => rfl, fun _ => rfl, fun _ => rfl⟩
  | succ n ih =>
    exact {
      collect := collect_succ ih
      collectField := collectField_succ h ih
      describe := describe_succ h ih
      visit := visit_succ h ih }

theorem entryWithin_substituted (g : TypeGraph) (s : Settings) (n : Nat) (v : Visited) :
    (g.substituted s).entryWithin s.withoutSubstitutions n v = g.entryWithin s n v := by
  unfold TypeGraph.entryWithin TypeGraph.definitionWithin
  simp only [javaTypeWithin_substituted, qualifiedName_substituted]
  rfl

theorem generateWithin_substituted (h : Separable g s root) (n : Nat) :
    (g.substituted s).generateWithin s.withoutSubstitutions n (s.substitute root) =
      g.generateWithin s n root := by
  have hroot : g.Meets s root (s.substitute root) := TypeGraph.Meets.root.substitute
  have hname : ((g.substituted s).info (s.substitute root)).displayName =
    (g.info (s.substitute root)).displayName := displayName_substituted g s _
  have hentry : (g.substituted s).entryWithin s.withoutSubstitutions n = g.entryWithin s n :=
    funext (entryWithin_substituted g s n)
  unfold TypeGraph.generateWithin Walk.ofRoot
  simp only [substitute_withoutSubstitutions, kind_substituted, Kind.isStruct_mapRefs,
    Kind.label_mapRefs, (walksAlike h n).collect hroot, hname, hentry]
  rfl

/-- Substituting during the walk is substituting in the types beforehand: under every bound, that
of `generate` among them, the schema or the error is the same, and so is the log. -/
theorem generate_substituted (g : TypeGraph) (s : Settings) (root : TypeRef)
    (h : Separable g s root) :
    (g.substituted s).generate s.withoutSubstitutions (s.substitute root) = g.generate s root ∧
      ∀ n, (g.substituted s).generateWithin s.withoutSubstitutions n (s.substitute root) =
        g.generateWithin s n root :=
  ⟨generateWithin_substituted h g.depth, generateWithin_substituted h⟩

def shopTypes : List TypeRef :=
  [.declared "Order", .declared "Base", .declared "Legacy", .declared "Item", .declared "Money",
    .declared "Report", .declared "text", .list (.declared "Item"), .option (.declared "Order"),
    .map .sorted (.declared "text") (.declared "Order")]

theorem shop_generate_substituted :
    Separable shop shopSettings (.declared "Legacy") ∧
      (∃ d, (shop.generate shopSettings (.declared "Legacy")).result = .ok d) ∧
      (shop.substituted shopSettings).generate shopSettings.withoutSubstitutions
        (.declared "Item") = shop.generate shopSettings (.declared "Legacy") := by
  have htouches : ∀ t, shopSettings.Touches t →
      t = .declared "Legacy" ∨ t = .declared "Item" := by
    intro t ht
    obtain ⟨p, hp, ht⟩ := touches_mem ht
    cases List.mem_singleton.mp hp
    exact ht
  have hmeets : ∀ t, shop.Meets shopSettings (.declared "Legacy") t → t ∈ shopTypes := fun t =>
    meets_mem shop shopSettings (by decide) (by decide) (by decide)
  have hkey : ∀ t ∈ shopTypes, ∀ k ∈ (shop.info t).kind.refs.head?,
      (shop.info t).kind.label = "map" →
        (shop.info (shopSettings.substitute k)).kind.isOptional = false := by decide
  have h : Separable shop shopSettings (.declared "Legacy") := {
    optional := by
      intro t ht
      obtain rfl | rfl := htouches t ht <;> rfl
    objectMeta := fun ht => absurd (htouches _ ht) (by decide)
    listMeta := fun ht => absurd (htouches _ ht) (by decide)
    key := fun {t k v} ht hk => hkey t (hmeets t ht) k (by simp [hk, Kind.refs]) (by rw [hk]; rfl) }
  exact ⟨h, ⟨_, rfl⟩, (generate_substituted shop shopSettings (.declared "Legacy") h).1⟩

end

end Proofs.Substitution

end ModelSchema
