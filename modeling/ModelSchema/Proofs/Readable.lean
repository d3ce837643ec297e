import ModelSchema.Document.Members
import ModelSchema.Proofs.Definitions
import ModelSchema.Proofs.Values

namespace ModelSchema

open Json

theorem propertyMembers_eq_map (ps : List (String × Property)) :
    propertyMembers ps = ps.map fun p => (p.1, p.2.toJson) := by
  induction ps with
  | nil => rfl
  | cons p ps ih =>
    rw [propertyMembers, ih]
    rfl

def Readable (ms : List (String × Json)) : Prop :=
  ∀ m ∈ ms, m.2.Representable

theorem readable_nil : Readable [] :=
  List.forall_mem_nil _

theorem readable_singleton {key : String} {v : Json} (h : v.Representable) : Readable [(key, v)] :=
  List.forall_mem_singleton.mpr h

theorem readable_append {ms ns : List (String × Json)} :
    Readable (ms ++ ns) ↔ Readable ms ∧ Readable ns :=
  List.forall_mem_append

theorem readable_optional_iff {α : Type} {key : String} {write : α → Json} {o : Option α} :
    Readable (optional key write o) ↔ ∀ a, o = some a → (write a).Representable := by
  cases o with
  | none => simp [optional, Readable]
  | some a => simp [optional, Readable]

theorem texts_representable (xs : List String) : (texts xs).Representable := by
  refine .array fun x hx => ?_
  obtain ⟨t, _, rfl⟩ := List.mem_map.mp hx
  exact .string t

theorem readable_texts (key : String) (xs : List String) : Readable (nonempty key texts xs) := by
  cases xs with
  | nil => exact readable_nil
  | cons x xs => exact readable_singleton (texts_representable _)

theorem Descriptor.readable_iff {d : Descriptor} : Readable d.members ↔
    (∀ v, d.default = some v → v.Representable) ∧
      (∀ vs, d.enumValues = some vs → ∀ v ∈ vs, v.Representable) := by
  have htype : Readable (optional "type" (fun t => .string t.keyword) d.instanceType) :=
    readable_optional_iff.mpr fun _ _ => .string _
  have hdescription : Readable (optional "description" .string d.description) :=
    readable_optional_iff.mpr fun _ _ => .string _
  rw [Descriptor.members, readable_append, readable_append, readable_append,
    and_iff_right htype, and_iff_right hdescription]
  refine and_congr readable_optional_iff (readable_optional_iff.trans ?_)
  simp only [representable_array_iff]

theorem JavaDescriptor.readable (j : JavaDescriptor) : Readable j.members := by
  have htype : ∀ key t, Readable (optional key .string t) :=
    fun _ _ => readable_optional_iff.mpr fun _ _ => .string _
  have hflag : Readable (flagged "javaOmitEmpty" j.omitEmpty) := by
    cases j.omitEmpty with
    | false => exact readable_nil
    | true => exact readable_singleton (.bool true)
  exact readable_append.mpr ⟨readable_append.mpr ⟨readable_append.mpr ⟨htype _ _, htype _ _⟩,
    readable_texts _ _⟩, hflag⟩

theorem representable_properties_iff {ps : List (String × Property)} :
    (Json.object (propertyMembers ps)).Representable ↔ ∀ p ∈ ps, p.2.toJson.Representable := by
  rw [representable_object_iff, propertyMembers_eq_map]
  exact List.forall_mem_map

theorem readable_properties_iff {key : String} {ps : List (String × Property)} :
    Readable (nonempty key .object (propertyMembers ps)) ↔
      ∀ p ∈ ps, p.2.toJson.Representable := by
  rw [← representable_properties_iff]
  cases ps with
  | nil => simp [propertyMembers, nonempty, Readable]
  | cons p ps => exact List.forall_mem_singleton

theorem ObjectOf.readable_iff {o : ObjectDescriptor} :
    Readable (objectMembers (some o)) ↔ ∀ p ∈ o.properties, p.2.toJson.Representable := by
  rw [objectMembers, ObjectOf.membersWith, readable_append, readable_append,
    and_iff_left (readable_singleton (.bool _)), and_iff_left (readable_texts _ _)]
  exact readable_properties_iff

theorem readable_propertyMember_iff {key : String} {p : Option Property} :
    Readable (propertyMember key p) ↔ ∀ r, p = some r → r.toJson.Representable := by
  cases p with
  | none => simp [propertyMember, Readable]
  | some p => simp [propertyMember, Readable, Property.toJson]

theorem Property.representable_iff {p : Property} : p.toJson.Representable ↔
    Readable p.descriptor.members ∧ Readable (objectMembers p.object) ∧
      (∀ r, p.items = some r → r.toJson.Representable) ∧
      (∀ r, p.mapValue = some r → r.toJson.Representable) := by
  obtain ⟨descriptor, reference, object, items, mapValue, java⟩ := p
  have hreference : Readable (optional "$ref" .string reference) :=
    readable_optional_iff.mpr fun _ _ => .string _
  rw [Property.toJson, representable_object_iff, Property.members]
  refine readable_append.trans ((and_iff_left java.readable).trans ?_)
  rw [readable_append, readable_append, readable_append, readable_append,
    and_iff_left hreference, readable_propertyMember_iff, readable_propertyMember_iff, and_assoc,
    and_assoc]

theorem Document.representable_iff {d : Document} : d.toJson.Representable ↔
    (∀ p ∈ d.definitions, p.2.toJson.Representable) ∧ Readable d.descriptor.members ∧
      (∀ p ∈ d.object.properties, p.2.toJson.Representable) ∧
      ∀ r, d.resources = some r → ∀ p ∈ r, p.2.toJson.Representable := by
  have hhead : Readable [("id", .string d.id), ("$schema", .string d.dialect)] :=
    List.forall_mem_cons.mpr ⟨.string _, readable_singleton (.string _)⟩
  rw [Document.toJson, representable_object_iff]
  refine readable_append.trans ?_
  rw [readable_append, readable_append, readable_append, and_iff_right hhead, readable_optional_iff,
    readable_properties_iff, ObjectOf.readable_iff, and_assoc, and_assoc]
  simp only [representable_properties_iff]

structure ReadableObject (o : ObjectDescriptor) : Prop where
  names : (Entries.keys o.properties).Nodup
  values : ∀ p ∈ o.properties, p.2.toJson.Representable

namespace Proofs.Readable

open Bounds Definitions

section

variable {o : ObjectDescriptor} {p : Property}

theorem described_representable (text : Option String) (h : p.toJson.Representable) :
    (p.described text).toJson.Representable := by
  cases text with
  | none => exact h
  | some t =>
    obtain ⟨hd, hrest⟩ := Property.representable_iff.mp h
    have hvalues := Descriptor.readable_iff.mp hd
    exact Property.representable_iff.mpr ⟨Descriptor.readable_iff.mpr hvalues, hrest⟩

theorem pinned_representable (value : String) (h : p.toJson.Representable) :
    (p.pinned value).toJson.Representable := by
  refine Property.representable_iff.mpr ⟨Descriptor.readable_iff.mpr ⟨?_, ?_⟩,
    (Property.representable_iff.mp h).2⟩
  · rintro v ⟨⟩
    exact .string value
  · rintro vs ⟨⟩ v hv
    obtain rfl := List.mem_singleton.mp hv
    exact .string value

theorem readable_insert (name : String) (h : ReadableObject o) (hp : p.toJson.Representable) :
    ReadableObject (o.insert name p) where
  names := Entries.keys_insert_nodup h.names name p
  values q hq := by
    obtain rfl | hq := Entries.mem_insert hq
    · exact hp
    · exact h.values q hq

theorem readable_require (name : String) (h : ReadableObject o) :
    ReadableObject (o.require name) := by
  unfold ObjectOf.require
  split
  · exact h
  · exact ⟨h.names, h.values⟩

theorem readable_addField (g : TypeGraph) (f : Field) (h : ReadableObject o)
    (hp : p.toJson.Representable) : ReadableObject (g.addField o f p) := by
  have hi := readable_insert f.name h (described_representable f.description hp)
  unfold TypeGraph.addField
  dsimp only
  split
  · exact readable_require f.name hi
  · exact hi

theorem readable_pin (name value : String) (h : ReadableObject o) :
    ReadableObject (pin o name value) := by
  unfold pin
  split
  · rename_i q hq
    have hq := h.values _ (Entries.mem_of_get? hq)
    exact readable_require name (readable_insert name h (pinned_representable value hq))
  · exact h

theorem readable_pinned (s : Settings) (t : TypeInfo) (role : Role) (h : ReadableObject o) :
    ReadableObject (s.pinned t role o) := by
  unfold Settings.pinned
  split
  · exact h
  split
  · exact readable_pin _ _ (readable_pin _ _ h)
  · exact h

end

variable (g : TypeGraph) (s : Settings)

theorem property_representable (x : TypeExpr) (omitEmpty : Bool) :
    (x.property g s omitEmpty).toJson.Representable := by
  have hparts : ∀ {p : Property}, p.descriptor.default = none → p.descriptor.enumValues = none →
      p.object = none → (∀ r, p.items = some r → r.toJson.Representable) →
      (∀ r, p.mapValue = some r → r.toJson.Representable) → p.toJson.Representable := by
    intro p hdefault henum ho hi hm
    refine Property.representable_iff.mpr ⟨Descriptor.readable_iff.mpr ⟨?_, ?_⟩, ?_, hi, hm⟩
    · simp [hdefault]
    · simp [henum]
    · rw [ho]
      exact readable_nil
  have hleaf : ∀ {p : Property}, p.descriptor.default = none → p.descriptor.enumValues = none →
      p.object = none → p.items = none → p.mapValue = none → p.toJson.Representable :=
    fun hdefault henum ho hi hm => hparts hdefault henum ho (by simp [hi]) (by simp [hm])
  induction x generalizing omitEmpty with
  | manual t => exact hleaf rfl rfl rfl rfl rfl
  | primitive t => cases t <;> exact hleaf rfl rfl rfl rfl rfl
  | any => exact hleaf rfl rfl rfl rfl rfl
  | enumeration values =>
    refine Property.representable_iff.mpr
      ⟨Descriptor.readable_iff.mpr ⟨?_, ?_⟩, readable_nil, ?_, ?_⟩
    · rintro v ⟨⟩
    · rintro vs ⟨⟩ v hv
      obtain ⟨t, _, rfl⟩ := List.mem_map.mp hv
      exact .string t
    · rintro r ⟨⟩
    · rintro r ⟨⟩
  | bytes => exact hleaf rfl rfl rfl rfl rfl
  | list e ih =>
    refine hparts rfl rfl rfl ?_ ?_
    · rintro r ⟨⟩
      exact ih false
    · rintro r ⟨⟩
  | map v ih =>
    refine hparts rfl rfl rfl ?_ ?_
    · rintro r ⟨⟩
    · rintro r ⟨⟩
      exact ih false
  | struct t => exact hleaf rfl rfl rfl rfl rfl

theorem fields_readable {n : Nat} {fs : List Field} {o o' : ObjectDescriptor}
    (h : fs.foldlM (g.addReadField s n) o = some o') (ho : ReadableObject o) :
    ReadableObject o' := by
  refine foldlM_property h ?_ ho
  intro f _ o o' hadd ho
  obtain ⟨x, _, rfl⟩ := Option.map_eq_some_iff.mp hadd
  exact readable_addField g f ho (property_representable g s x _)

theorem object_readable {n : Nat} {t : TypeRef} {o : ObjectDescriptor}
    (h : g.objectWithin s n t = some o) : ReadableObject o := by
  obtain ⟨fs, _, ho⟩ := Option.bind_eq_some_iff.mp h
  exact fields_readable g s ho ⟨List.nodup_nil, List.forall_mem_nil _⟩

theorem definition_readable {t : TypeRef} {p : Property} (h : g.Defines s t p) :
    (∃ o, p.object = some o ∧ ReadableObject o) ∧ p.toJson.Representable := by
  obtain ⟨n, o, role, j, ho, _, _, rfl⟩ := defines_iff.mp h
  have hreadable := readable_pinned s (g.info t) role (object_readable g s ho)
  refine ⟨⟨_, rfl, hreadable⟩, Property.representable_iff.mpr ⟨Descriptor.readable_iff.mpr ⟨?_, ?_⟩,
    ObjectOf.readable_iff.mpr hreadable.values, ?_, ?_⟩⟩
  · rintro v ⟨⟩
  · rintro vs ⟨⟩
  · rintro r ⟨⟩
  · rintro r ⟨⟩

theorem generated_readable {n : Nat} {root : TypeRef} {d : Document}
    (h : (g.generateWithin s n root).result = .ok d) :
    d.toJson.Representable ∧ ReadableObject d.object ∧ (Entries.keys d.definitions).Nodup ∧
      ∀ key p, Entries.get? d.definitions key = some p →
        ∃ o, p.object = some o ∧ ReadableObject o := by
  obtain ⟨o, p, es, a, hg⟩ := generateWithin_ok h
  have hobject : ReadableObject d.object := by
    rw [hg.document]
    exact object_readable g s hg.object
  have hentry : ∀ e ∈ es, e.definition.toJson.Representable := by
    intro e he
    obtain ⟨t, _, _, _, hdef⟩ := (hg.mem_entries_iff e).mp he
    exact (definition_readable g s hdef).2
  have hdefinitions : ∀ q ∈ d.definitions, q.2.toJson.Representable := by
    intro q hq
    rw [hg.document] at hq
    obtain ⟨e, he, rfl⟩ := List.mem_map.mp (hg.assembles.definitions.mem_iff.mp hq)
    exact hentry e he
  have hresources : ∀ r, d.resources = some r → ∀ q ∈ r, q.2.toJson.Representable := by
    intro r hr q hq
    rw [hg.document] at hr
    cases hr
    obtain ⟨e, he, hqe⟩ := hg.assembles.resources q hq
    rw [hqe]
    exact hentry e he
  have hdescriptor : Readable d.descriptor.members := by
    rw [hg.document]
    refine Descriptor.readable_iff.mpr ⟨?_, ?_⟩
    · rintro v ⟨⟩
    · rintro vs ⟨⟩
  refine ⟨Document.representable_iff.mpr ⟨hdefinitions, hdescriptor, hobject.values, hresources⟩,
    hobject, ?_, ?_⟩
  · rw [hg.document]
    exact hg.assembles.keys_nodup
  · intro key q hq
    obtain ⟨t, _, _, hdef⟩ := hg.get?_iff.mp hq
    exact (definition_readable g s hdef).1

end Proofs.Readable

end ModelSchema
