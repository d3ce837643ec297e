import ModelSchema.Proofs.Pinning

namespace ModelSchema

def ObjectOf.IsPinned (o : ObjectDescriptor) (name : String) : Prop :=
  (name = "apiVersion" ∨ name = "kind") ∧ ∃ value, o.PinnedTo name value

namespace TypeGraph

variable (g : TypeGraph) (s : Settings)

/-- `fields` are the fields of the struct `t`, with those of the structs that it embeds, in
order. -/
def Flattens (t : TypeRef) (fields : List Field) : Prop :=
  ∃ n, g.fieldsWithin s n t = some fields

/-- The field is flagged required and declared with a type that is not optional. -/
def Asks (f : Field) : Prop :=
  f.isRequired ∧ ¬(g.info f.type).kind.isOptional

instance (f : Field) : Decidable (g.Asks f) :=
  inferInstanceAs (Decidable (_ ∧ _))

def askedNames (fields : List Field) : List String :=
  (fields.filter fun f => g.Asks f).map (·.name)

/-- The object requires the names for which some field asks, and its pinned properties. -/
structure RequiresAsked (fields : List Field) (o : ObjectDescriptor) : Prop where
  nodup : o.required.Nodup
  described : ∀ name ∈ o.required, name ∈ Entries.keys o.properties
  asked : ∀ name ∈ o.required, o.IsPinned name ∨ ∃ f ∈ fields, f.name = name ∧ g.Asks f
  listed : ∀ f ∈ fields, g.Asks f → f.name ∈ o.required

end TypeGraph

namespace Proofs.Requirements

open Reading Roles Pinning
open Entries (eraseDups_concat)

section

variable {α : Type} [BEq α] [LawfulBEq α]

theorem nodup_eraseDups (xs : List α) : xs.eraseDups.Nodup := by
  induction xs using List.reverseRecOn with
  | nil => exact List.nodup_nil
  | append_singleton xs x ih =>
    rw [eraseDups_concat]
    split
    · exact ih
    · rename_i hx
      refine List.nodup_append'.mpr ⟨ih, List.nodup_singleton x, ?_⟩
      exact List.disjoint_singleton.mpr fun h => hx (List.mem_eraseDups.mp h)

theorem eraseDups_of_nodup {xs : List α} (h : xs.Nodup) : xs.eraseDups = xs := by
  induction xs using List.reverseRecOn with
  | nil => rfl
  | append_singleton xs x ih =>
    obtain ⟨hxs, _, hx⟩ := List.nodup_append'.mp h
    rw [eraseDups_concat, if_neg (List.disjoint_singleton.mp hx), ih hxs]

theorem eraseDups_eraseDups_append (xs ys : List α) :
    (xs.eraseDups ++ ys).eraseDups = (xs ++ ys).eraseDups := by
  induction ys using List.reverseRecOn with
  | nil =>
    rw [List.append_nil, List.append_nil]
    exact eraseDups_of_nodup (nodup_eraseDups xs)
  | append_singleton ys y ih =>
    rw [← List.append_assoc, ← List.append_assoc, eraseDups_concat, eraseDups_concat, ih]
    simp only [List.mem_append, List.mem_eraseDups]

theorem eraseDups_append_eraseDups (xs ys : List α) :
    (xs ++ ys.eraseDups).eraseDups = (xs ++ ys).eraseDups := by
  induction ys using List.reverseRecOn with
  | nil => rfl
  | append_singleton ys y ih =>
    rw [eraseDups_concat, ← List.append_assoc, eraseDups_concat (xs ++ ys)]
    by_cases hy : y ∈ ys
    · simp [hy, ih]
    · rw [if_neg hy, ← List.append_assoc, eraseDups_concat, ih]
      simp only [List.mem_append, List.mem_eraseDups]

end

section

variable {o : ObjectDescriptor}

theorem required_require (h : o.required.Nodup) (name : String) :
    (o.require name).required = (o.required ++ [name]).eraseDups := by
  rw [eraseDups_concat, eraseDups_of_nodup h]
  unfold ObjectOf.require
  split <;> rfl

theorem nodup_require (h : o.required.Nodup) (name : String) :
    (o.require name).required.Nodup := by
  rw [required_require h]
  exact nodup_eraseDups _

theorem nodup_pin (h : o.required.Nodup) (name value : String) :
    (pin o name value).required.Nodup := by
  unfold pin
  split
  · rename_i q _
    exact nodup_require (o := o.insert name (q.pinned value)) h name
  · exact h

theorem mem_pin_required {name value other : String}
    (h : other ∈ (pin o name value).required) : other = name ∨ other ∈ o.required := by
  unfold pin at h
  split at h
  · rename_i q _
    exact mem_require (o := o.insert name (q.pinned value)).mp h
  · exact Or.inr h

theorem mem_required_pin {other : String} (h : other ∈ o.required) (name value : String) :
    other ∈ (pin o name value).required := by
  unfold pin
  split
  · rename_i q _
    exact mem_require (o := o.insert name (q.pinned value)).mpr (Or.inr h)
  · exact h

end

section

variable {g : TypeGraph} {s : Settings} {n : Nat} {t : TypeRef} {fields : List Field}
  {o o' : ObjectDescriptor} {name : String}

theorem askedNames_singleton (f : Field) :
    g.askedNames [f] = if g.Asks f then [f.name] else [] := by
  by_cases hf : g.Asks f <;> simp [TypeGraph.askedNames, hf]

theorem askedNames_cons (f : Field) (fields : List Field) :
    g.askedNames (f :: fields) = g.askedNames [f] ++ g.askedNames fields := by
  rw [← List.singleton_append, TypeGraph.askedNames, List.filter_append, List.map_append]
  rfl

theorem mem_askedNames : name ∈ g.askedNames fields ↔ ∃ f ∈ fields, f.name = name ∧ g.Asks f := by
  simp only [TypeGraph.askedNames, List.mem_map, List.mem_filter, decide_eq_true_eq]
  exact exists_congr fun f => by rw [and_assoc, and_comm (a := g.Asks f)]

theorem required_addField (h : o.required.Nodup) (f : Field) (p : Property) :
    (g.addField o f p).required = (o.required ++ g.askedNames [f]).eraseDups := by
  by_cases hf : g.Asks f
  · have hadd : g.addField o f p = (o.insert f.name (p.described f.description)).require f.name :=
      if_pos hf
    rw [hadd, required_require (o := o.insert _ _) h, askedNames_singleton, if_pos hf]
    rfl
  · have hadd : g.addField o f p = o.insert f.name (p.described f.description) := if_neg hf
    rw [hadd, askedNames_singleton, if_neg hf, List.append_nil, eraseDups_of_nodup h]
    rfl

theorem fields_required (h : fields.foldlM (g.addReadField s n) o = some o')
    (ho : o.required.Nodup) : o'.required = (o.required ++ g.askedNames fields).eraseDups := by
  induction fields generalizing o with
  | nil =>
    cases h
    simp [TypeGraph.askedNames, eraseDups_of_nodup ho]
  | cons f fields ih =>
    rw [List.foldlM_cons] at h
    obtain ⟨o₁, h₁, h⟩ := Option.bind_eq_some_iff.mp h
    obtain ⟨x, _, rfl⟩ := Option.map_eq_some_iff.mp h₁
    have hrequired := required_addField (g := g) ho f (x.property g s f.omitEmpty)
    rw [ih h (hrequired ▸ nodup_eraseDups _), hrequired, eraseDups_eraseDups_append,
      List.append_assoc, ← askedNames_cons]

/-- Before anything is pinned, exactly the names are required for which some field asks. -/
theorem object_required (h : g.objectWithin s n t = some o) :
    ∃ fields, g.fieldsWithin s n t = some fields ∧ o.required.Nodup ∧
      (∀ name, name ∈ o.required ↔ ∃ f ∈ fields, f.name = name ∧ g.Asks f) ∧
      ∀ f ∈ fields, f.name ∈ Entries.keys o.properties := by
  obtain ⟨fields, hfields, ho⟩ := Option.bind_eq_some_iff.mp h
  have hrequired : o.required = (g.askedNames fields).eraseDups :=
    fields_required ho List.nodup_nil
  refine ⟨fields, hfields, hrequired ▸ nodup_eraseDups _, fun name => ?_, fun f hf => ?_⟩
  · rw [hrequired, List.mem_eraseDups, mem_askedNames]
  · exact (fields_keys ho).mpr (Or.inr (List.mem_map_of_mem hf))

theorem object_requiresAsked (h : g.objectWithin s n t = some o) :
    ∃ fields, g.Flattens s t fields ∧ g.RequiresAsked fields o := by
  obtain ⟨fields, hfields, hnodup, hmem, hkeys⟩ := object_required h
  refine ⟨fields, ⟨n, hfields⟩, hnodup, ?_, ?_, ?_⟩
  · intro name hname
    obtain ⟨f, hf, rfl, _⟩ := (hmem name).mp hname
    exact hkeys f hf
  · exact fun name hname => Or.inr ((hmem name).mp hname)
  · exact fun f hf hasks => (hmem f.name).mpr ⟨f, hf, rfl, hasks⟩

theorem pinned_requiresAsked {role : Role} (ho : g.objectWithin s n t = some o)
    (hrole : g.roleWithin s n t = some role) :
    ∃ fields, g.Flattens s t fields ∧ g.RequiresAsked fields (s.pinned (g.info t) role o) := by
  by_cases hplain : role = .plain
  · rw [Settings.pinned, if_pos hplain]
    exact object_requiresAsked ho
  cases hk : s.package? (g.info t).package with
  | none =>
    rw [Settings.pinned, if_neg hplain, hk]
    exact object_requiresAsked ho
  | some k =>
    have hpin : s.pinned (g.info t) role o =
        pin (pin o "apiVersion" k.apiVersion) "kind" (g.info t).name := by
      rw [Settings.pinned, if_neg hplain, hk]
    obtain ⟨hversion, hkind⟩ := pinnedTo_pinned hplain hk (keys_of_role ho hrole hplain)
    have hkeys := pinned_keys o s (g.info t) role
    generalize s.pinned (g.info t) role o = x at hpin hversion hkind hkeys ⊢
    obtain ⟨fields, hfields, hnodup, hmem, hnames⟩ := object_required ho
    have hasked : ∀ name ∈ x.required,
        x.IsPinned name ∨ ∃ f ∈ fields, f.name = name ∧ g.Asks f := by
      intro name hname
      rw [hpin] at hname
      obtain rfl | hname := mem_pin_required hname
      · exact Or.inl ⟨Or.inr rfl, _, hkind⟩
      obtain rfl | hname := mem_pin_required hname
      · exact Or.inl ⟨Or.inl rfl, _, hversion⟩
      · exact Or.inr ((hmem name).mp hname)
    refine ⟨fields, ⟨n, hfields⟩, ?_, ?_, hasked, ?_⟩
    · rw [hpin]
      exact nodup_pin (nodup_pin hnodup _ _) _ _
    · intro name hname
      obtain ⟨_, _, _, q, hq, _⟩ | ⟨f, hf, rfl, _⟩ := hasked name hname
      · exact (Entries.get?_isSome_iff _ _).mp (Option.isSome_of_eq_some hq)
      · exact hkeys ▸ hnames f hf
    · intro f hf hasks
      rw [hpin]
      exact mem_required_pin (mem_required_pin ((hmem f.name).mpr ⟨f, hf, rfl, hasks⟩) _ _) _ _

theorem walked_requiresAsked {root : TypeRef} {p : Progress} {x : ObjectDescriptor}
    (h : Walk.ofRoot g s n root = .ok o p)
    (hx : t = root ∧ x = o ∨ ∃ v ∈ p.visited, v.type = t ∧ v.object = some x) :
    ∃ fields, g.Flattens s t fields ∧ g.RequiresAsked fields x := by
  obtain ⟨ho, hgrows⟩ := Growth.ofRoot_grows g s h
  obtain ⟨rfl, rfl⟩ | ⟨v, hv, rfl, hobject⟩ := hx
  · exact object_requiresAsked ho
  · obtain ⟨m, hm⟩ := hgrows.finished v hv
    obtain ⟨a, ha, hm⟩ := Option.bind_eq_some_iff.mp hm
    obtain ⟨role, hrole, he⟩ := Option.map_eq_some_iff.mp hm
    rw [← he, Option.some.injEq] at hobject
    exact hobject ▸ pinned_requiresAsked ha hrole

theorem flattens_unique {fields' : List Field} (h : g.Flattens s t fields)
    (h' : g.Flattens s t fields') : fields = fields' := by
  obtain ⟨n, h⟩ := h
  obtain ⟨m, h'⟩ := h'
  exact Bounds.unique (fun hle => Bounds.fieldsWithin_keeps g s hle t) h h'

/-- In a generated document the root and every definition require no name twice and only names of
their properties, and they require exactly the names for which at least one of their fields asks,
beside a pinned version or kind. The field that asks need not be the last one of the name, which
the property describes. -/
theorem required_asked {root : TypeRef} {d : Document}
    (h : (g.generateWithin s n root).result = .ok d) :
    (∃ fields, g.Flattens s (s.substitute root) fields ∧ g.RequiresAsked fields d.object) ∧
    ∀ x ∈ d.definitions, ∃ t o fields, g.Reachable s (s.substitute root) t ∧
      x.1 = s.qualifiedName (g.info t) ∧ g.Defines s t x.2 ∧ x.2.object = some o ∧
      g.Flattens s t fields ∧ g.RequiresAsked fields o := by
  obtain ⟨o, p, es, a, hg⟩ := Definitions.generateWithin_ok h
  refine ⟨?_, fun x hx => ?_⟩
  · rw [hg.document]
    exact object_requiresAsked hg.object
  · obtain ⟨t, ht, hname, hdef⟩ := hg.mem_definitions hx
    obtain ⟨m, o, role, ho, hrole, hobject, _⟩ := defines_object hdef
    obtain ⟨fields, hfields, hasked⟩ := pinned_requiresAsked ho hrole
    exact ⟨t, _, fields, ht, hname.symm, hdef, hobject, hfields, hasked⟩

end

def signedBy : Field :=
  { name := "by", type := .declared "text", isRequired := true }

def signedNote : Field :=
  { name := "note", type := .declared "text", isRequired := true }

def letterNote : Field :=
  { name := "note", type := .option (.declared "text") }

def parcelTo : Field :=
  { name := "to", type := .option (.declared "text"), isRequired := true }

def parcelWeight : Field :=
  { name := "weight", type := .declared "text", isRequired := true }

/-- A letter embeds a signature with a note, and may have a note of its own. -/
def post : TypeGraph where
  info
    | .declared "Letter" => ⟨"Letter", "post", none, .struct [
        { name := "", type := .declared "Signed", isInline := true }, letterNote]⟩
    | .declared "Signed" => ⟨"Signed", "post", none, .struct [signedBy, signedNote]⟩
    | .declared "Parcel" => ⟨"Parcel", "post", none, .struct [parcelTo, parcelWeight]⟩
    | .declared "text" => ⟨"", "", none, .primitive .string⟩
    | .declared "number" => ⟨"", "", none, .primitive .int64⟩
    | .option e => ⟨"", "", none, .optional e⟩
    | _ => ⟨"", "", none, .any⟩
  refs := [.declared "Letter", .declared "Signed", .declared "Parcel", .declared "text",
    .declared "number", .option (.declared "text"), .option (.declared "number")]

theorem letter_required_asked : ∃ d fields,
    (post.generate {} (.declared "Letter")).result = .ok d ∧ d.object.required = ["by", "note"] ∧
      post.Flattens {} (.declared "Letter") fields ∧ post.RequiresAsked fields d.object := by
  obtain ⟨d, hd, hrequired⟩ : ∃ d, (post.generate {} (.declared "Letter")).result = .ok d ∧
      d.object.required = ["by", "note"] := ⟨_, rfl, rfl⟩
  obtain ⟨⟨fields, hfields, hasked⟩, _⟩ := required_asked hd
  exact ⟨d, fields, hd, hrequired, hfields, hasked⟩

/-- The note of a letter is required although the property shows its own one, which may be
missing. -/
theorem letter_note_stays_required : ∃ d p,
    (post.generate {} (.declared "Letter")).result = .ok d ∧
      post.Flattens {} (.declared "Letter") [signedBy, signedNote, letterNote] ∧
      LastNamed "note" [signedBy, signedNote, letterNote] letterNote ∧
      letterNote.isRequired = false ∧ (post.info letterNote.type).kind.isOptional ∧
      Entries.get? d.object.properties "note" = some p ∧ p.descriptor.default = none ∧
      "note" ∈ d.object.required :=
  ⟨_, _, rfl, ⟨3, rfl⟩, ⟨[signedBy, signedNote], [], rfl, rfl, by simp⟩, rfl, rfl, rfl, rfl,
    by decide⟩

section

variable {g : TypeGraph} {s : Settings} {n : Nat} {t : TypeRef} {fields : List Field}
  {o : ObjectDescriptor}

/-- Whenever the walk succeeds, a flagged field whose name no other field of the struct has is
required if and only if the type that it is declared with is not optional, pinned properties apart.
The type that is substituted for it says the same exactly if it is optional where that one is. -/
theorem required_iff_declared {root : TypeRef} {p : Progress} {x : ObjectDescriptor}
    (h : Walk.ofRoot g s n root = .ok o p)
    (hx : t = root ∧ x = o ∨ ∃ v ∈ p.visited, v.type = t ∧ v.object = some x)
    (hfields : g.Flattens s t fields) (hnames : (fields.map (·.name)).Nodup) {f : Field}
    (hf : f ∈ fields) (hflag : f.isRequired) (hpin : ¬x.IsPinned f.name) :
    (f.name ∈ x.required ↔ (g.info f.type).kind.isOptional = false) ∧
      ((f.name ∈ x.required ↔ (g.info (s.substitute f.type)).kind.isOptional = false) ↔
        (g.info (s.substitute f.type)).kind.isOptional = (g.info f.type).kind.isOptional) := by
  obtain ⟨fields', hfields', hasked⟩ := walked_requiresAsked h hx
  cases flattens_unique hfields hfields'
  have hiff : f.name ∈ x.required ↔ (g.info f.type).kind.isOptional = false := by
    constructor
    · intro hmem
      obtain ⟨f', hf', hname, _, hoptional⟩ := (hasked.asked f.name hmem).resolve_left hpin
      obtain rfl := List.inj_on_of_nodup_map hnames hf' hf hname
      simpa using hoptional
    · intro hoptional
      exact hasked.listed f hf ⟨hflag, by simp [hoptional]⟩
  refine ⟨hiff, ?_⟩
  rw [hiff]
  cases (g.info f.type).kind.isOptional <;> cases (g.info (s.substitute f.type)).kind.isOptional <;>
    simp

end

/-- Texts that may be missing become texts, and texts become numbers that may be missing. -/
def postSettings : Settings where
  substitutions := [(.option (.declared "text"), .declared "text"),
    (.declared "text", .option (.declared "number"))]

theorem parcel_required_iff_declared : ∃ o p,
    Walk.ofRoot post postSettings 9 (.declared "Parcel") = .ok o p ∧
      parcelWeight.isRequired ∧ ¬o.IsPinned parcelWeight.name ∧
      (parcelWeight.name ∈ o.required ↔
        (post.info parcelWeight.type).kind.isOptional = false) := by
  obtain ⟨o, p, h⟩ : ∃ o p, Walk.ofRoot post postSettings 9 (.declared "Parcel") = .ok o p :=
    ⟨_, _, rfl⟩
  have hpin : ¬o.IsPinned parcelWeight.name := fun hpin => absurd hpin.1 (by decide)
  have hfields : post.Flattens postSettings (.declared "Parcel") [parcelTo, parcelWeight] :=
    ⟨3, rfl⟩
  exact ⟨o, p, h, rfl, hpin,
    (required_iff_declared h (Or.inl ⟨rfl, rfl⟩) hfields (by decide) (by simp) rfl hpin).1⟩

/-- A parcel need not say where it goes, although that is a plain text, and has to have a weight
that may be missing. -/
theorem parcel_ignores_substitution : ∃ d,
    (post.generate postSettings (.declared "Parcel")).result = .ok d ∧
      post.Flattens postSettings (.declared "Parcel") [parcelTo, parcelWeight] ∧
      ([parcelTo, parcelWeight].map (·.name)).Nodup ∧
      (parcelTo.isRequired ∧ ¬d.object.IsPinned parcelTo.name ∧
        (post.info (postSettings.substitute parcelTo.type)).kind.isOptional = false) ∧
      (parcelWeight.isRequired ∧ ¬d.object.IsPinned parcelWeight.name ∧
        (post.info (postSettings.substitute parcelWeight.type)).kind.isOptional = true) ∧
      d.object.required = [parcelWeight.name] :=
  ⟨_, rfl, ⟨3, rfl⟩, by decide,
    ⟨rfl, fun hpin => absurd hpin.1 (by decide), by decide⟩,
    ⟨rfl, fun hpin => absurd hpin.1 (by decide), by decide⟩, rfl⟩

end Proofs.Requirements

end ModelSchema
