import ModelSchema.Proofs.Readable
import ModelSchema.Proofs.Rendering

namespace ModelSchema

/-- Property names as they are rendered. -/
def renderedNames (names : List String) : List String :=
  (names.map correctKey).eraseDups

theorem renderedNames_eq_self_iff {names : List String} (h : names.Nodup) :
    renderedNames names = names ↔ ∀ name ∈ names, ¬EndsInMapKey name := by
  constructor
  · intro heq name hname
    rw [← heq, renderedNames, List.mem_eraseDups] at hname
    obtain ⟨original, _, rfl⟩ := List.mem_map.mp hname
    exact not_endsInMapKey_correctKey original
  · intro hnames
    have hmap : names.map correctKey = names.map id :=
      List.map_congr_left fun name hname => if_neg (hnames name hname)
    have hkeys : Entries.keys (names.map fun name => (name, ())) = names := by
      rw [Entries.keys, List.map_map]
      exact List.map_id names
    have hmerged := Entries.keys_ofList (names.map fun name => (name, ()))
    rw [Entries.ofList_of_nodup (hkeys.symm ▸ h), hkeys] at hmerged
    rw [renderedNames, hmap, List.map_id, ← hmerged]

namespace Json

/-- The names under `properties`, in their order. -/
def propertyNames (schema : Json) : List String :=
  match schema.get? "properties" with
  | some (.object ms) => Entries.keys ms
  | _ => []

/-- The value with its keys corrected and repeated keys merged. -/
def corrected (v : Json) : Json :=
  (v.mapKeys correctKey).merged

theorem corrected_object (ms : List (String × Json)) :
    (object ms).corrected =
      .object (Entries.ofList (ms.map fun m => (correctKey m.1, m.2.corrected))) := by
  rw [corrected, mapKeys, merged, mapMemberKeys_eq_map, mergedMembers_eq_map, List.map_map]
  rfl

def Without (key : String) (ms : List (String × Json)) : Prop :=
  ∀ m ∈ ms, correctKey m.1 ≠ key

section

variable {α : Type} {key other : String} {ms ns : List (String × Json)}

theorem Without.append (h : Without key ms) (h' : Without key ns) : Without key (ms ++ ns) :=
  List.forall_mem_append.mpr ⟨h, h'⟩

theorem without_singleton (h : correctKey other ≠ key) (v : Json) : Without key [(other, v)] :=
  List.forall_mem_singleton.mpr h

theorem without_optional (h : correctKey other ≠ key) (write : α → Json) (a : Option α) :
    Without key (optional other write a) := by
  cases a with
  | none => exact List.forall_mem_nil _
  | some a => exact without_singleton h _

theorem without_nonempty (h : correctKey other ≠ key) (write : List α → Json) (xs : List α) :
    Without key (nonempty other write xs) := by
  cases xs with
  | nil => exact List.forall_mem_nil _
  | cons x xs => exact without_singleton h _

theorem without_flagged (h : correctKey other ≠ key) (b : Bool) :
    Without key (flagged other b) := by
  cases b with
  | false => exact List.forall_mem_nil _
  | true => exact without_singleton h _

theorem without_propertyMember (h : correctKey other ≠ key) (p : Option Property) :
    Without key (propertyMember other p) := by
  cases p with
  | none => exact List.forall_mem_nil _
  | some p => exact without_singleton h _

theorem get?_corrected (hkey : correctKey key = key) (hms : Without key ms) (hns : Without key ns)
    (ps : List (String × Json)) :
    (object (ms ++ nonempty key .object ps ++ ns)).corrected.get? key =
      if ps = [] then none else some (object ps).corrected := by
  have hkeys : ∀ {ms}, Without key ms →
      key ∉ Entries.keys (ms.map fun m => (correctKey m.1, m.2.corrected)) := by
    intro ms h hmem
    rw [Entries.keys, List.map_map, List.mem_map] at hmem
    obtain ⟨m, hm, heq⟩ := hmem
    exact h m hm heq
  rw [corrected_object]
  show Entries.get? _ key = _
  rw [List.append_assoc, List.map_append, List.map_append]
  cases ps with
  | nil => exact Entries.get?_ofList_of_not_mem (by
      rw [← List.map_append, ← List.map_append]
      exact hkeys (hms.append hns))
  | cons p ps =>
    rw [if_neg (List.cons_ne_nil p ps)]
    have hlast := Entries.get?_ofList_of_last
      (ms.map fun m => (correctKey m.1, m.2.corrected)) (object (p :: ps)).corrected (hkeys hns)
    rw [← hlast]
    simp [nonempty, hkey]

end

theorem propertyNames_corrected {ms ns : List (String × Json)} (hms : Without "properties" ms)
    (hns : Without "properties" ns) (ps : List (String × Json)) :
    (object (ms ++ nonempty "properties" .object ps ++ ns)).corrected.propertyNames =
      renderedNames (Entries.keys ps) := by
  rw [propertyNames, get?_corrected (by decide) hms hns]
  cases ps with
  | nil => rfl
  | cons p ps =>
    rw [if_neg (List.cons_ne_nil p ps), corrected_object]
    show Entries.keys (Entries.ofList _) = _
    rw [Entries.keys_ofList, renderedNames, Entries.keys, Entries.keys, List.map_map, List.map_map]
    rfl

end Json

section

open Json

theorem keys_propertyMembers (ps : List (String × Property)) :
    Entries.keys (propertyMembers ps) = Entries.keys ps := by
  rw [propertyMembers_eq_map, Entries.keys, List.map_map]
  rfl

theorem Descriptor.members_without {key : String}
    (hkey : ∀ k ∈ ["type", "description", "default", "enum"], correctKey k ≠ key) (d : Descriptor) :
    Without key d.members := by
  have hoptional : ∀ {α : Type} {k : String} (write : α → Json) (a : Option α),
      k ∈ ["type", "description", "default", "enum"] → Without key (optional k write a) :=
    fun write a hk => without_optional (hkey _ hk) write a
  exact (((hoptional _ _ (by simp)).append (hoptional _ _ (by simp))).append
    (hoptional _ _ (by simp))).append (hoptional _ _ (by simp))

theorem ObjectOf.membersWith_names {ms ns : List (String × Json)} (hms : Without "properties" ms)
    (hns : Without "properties" ns) (ps : List (String × Json)) (required : List String)
    (additional : Bool) :
    (object (ms ++ ObjectOf.membersWith ps required additional ++ ns)).corrected.propertyNames =
      renderedNames (Entries.keys ps) := by
  have hrest : Without "properties" (nonempty "required" texts required ++
      [("additionalProperties", .bool additional)] ++ ns) :=
    ((without_nonempty (by decide) _ _).append (without_singleton (by decide) _)).append hns
  have hnames := propertyNames_corrected hms hrest ps
  simp only [ObjectOf.membersWith, List.append_assoc] at hnames ⊢
  exact hnames

theorem JavaDescriptor.members_without {key : String}
    (hkey : ∀ k ∈ ["javaType", "existingJavaType", "javaInterfaces", "javaOmitEmpty"],
      correctKey k ≠ key) (j : JavaDescriptor) : Without key j.members := by
  exact (((without_optional (hkey _ (by simp)) _ _).append
    (without_optional (hkey _ (by simp)) _ _)).append
    (without_nonempty (hkey _ (by simp)) _ _)).append (without_flagged (hkey _ (by simp)) _)

theorem Property.names_corrected {p : Property} {o : ObjectDescriptor} (h : p.object = some o) :
    p.toJson.corrected.propertyNames = renderedNames (Entries.keys o.properties) := by
  obtain ⟨descriptor, reference, object, items, mapValue, java⟩ := p
  obtain ⟨properties, required, additional⟩ := o
  cases h
  have hms : Without "properties" (descriptor.members ++ optional "$ref" .string reference) :=
    (descriptor.members_without (by decide)).append (without_optional (by decide) _ _)
  have hns : Without "properties" (propertyMember "items" items ++
      propertyMember mapValueKey mapValue ++ java.members) :=
    ((without_propertyMember (by decide) _).append (without_propertyMember (by decide) _)).append
      (java.members_without (by decide))
  have hnames := ObjectOf.membersWith_names hms hns (propertyMembers properties) required additional
  rw [keys_propertyMembers, ← List.append_assoc, ← List.append_assoc] at hnames
  rw [Property.toJson, Property.members, objectMembers]
  exact hnames

theorem Document.names_corrected (d : Document) :
    d.toJson.corrected.propertyNames = renderedNames (Entries.keys d.object.properties) := by
  have hms : Without "properties" ([("id", .string d.id), ("$schema", .string d.dialect)] ++
      nonempty "definitions" .object (propertyMembers d.definitions) ++ d.descriptor.members) :=
    (((without_singleton (by decide) _).append (without_singleton (by decide) _)).append
      (without_nonempty (by decide) _ _)).append (d.descriptor.members_without (by decide))
  have hns : Without "properties" (optional "resources" (fun r => .object (propertyMembers r))
      d.resources) := without_optional (by decide) _ _
  have hnames := ObjectOf.membersWith_names hms hns (propertyMembers d.object.properties)
    d.object.required d.object.additionalProperties
  rw [keys_propertyMembers] at hnames
  exact hnames

theorem Document.definition_corrected {d : Document} {key : String} {p : Property}
    (hnodup : (Entries.keys d.definitions).Nodup)
    (hkeys : ∀ k ∈ Entries.keys d.definitions, ¬EndsInMapKey k)
    (hp : Entries.get? d.definitions key = some p) :
    (d.toJson.corrected.get? "definitions").bind (·.get? key) = some p.toJson.corrected := by
  have hns : Without "definitions" (d.descriptor.members ++ objectMembers (some d.object) ++
      optional "resources" (fun r => .object (propertyMembers r)) d.resources) :=
    ((d.descriptor.members_without (by decide)).append
      ((Without.append (without_nonempty (by decide) _ _) (without_nonempty (by decide) _ _)).append
        (without_singleton (by decide) _))).append (without_optional (by decide) _ _)
  have hms : Without "definitions" [("id", .string d.id), ("$schema", .string d.dialect)] :=
    (without_singleton (by decide) _).append (without_singleton (by decide) _)
  have hget := get?_corrected (by decide) hms hns (propertyMembers d.definitions)
  have hne : propertyMembers d.definitions ≠ [] := by
    rw [propertyMembers_eq_map, Ne, List.map_eq_nil_iff]
    rintro hnil
    simp [hnil, Entries.get?] at hp
  have hmap : ((propertyMembers d.definitions).map fun m => (correctKey m.1, m.2.corrected)) =
      d.definitions.map fun q => (q.1, q.2.toJson.corrected) := by
    rw [propertyMembers_eq_map, List.map_map]
    refine List.map_congr_left fun q hq => ?_
    have hkey : correctKey q.1 = q.1 := if_neg (hkeys _ (List.mem_map_of_mem hq))
    exact congrArg (fun k => (k, q.2.toJson.corrected)) hkey
  have hnodup' : (Entries.keys (d.definitions.map fun q => (q.1, q.2.toJson.corrected))).Nodup := by
    rw [Entries.keys, List.map_map]
    exact hnodup
  rw [if_neg hne, ← List.append_assoc, ← List.append_assoc] at hget
  rw [Document.toJson, hget, corrected_object, hmap, Entries.ofList_of_nodup hnodup']
  exact (Entries.get?_eq_some_iff hnodup').mpr (List.mem_map_of_mem (Entries.mem_of_get? hp))

end

namespace Proofs.PropertyNames

open Json Reach Readable

variable {g : TypeGraph} {s : Settings}

/-- What the rendered schema of an object names: the same names if the correction meets none. -/
def Names (schema : Json) (names : List String) : Prop :=
  schema.propertyNames = renderedNames names ∧
    (schema.propertyNames = names ↔ ∀ name ∈ names, ¬EndsInMapKey name)

theorem names_of_readable {schema : Json} {o : ObjectDescriptor} (ho : ReadableObject o)
    (h : schema.propertyNames = renderedNames (Entries.keys o.properties)) :
    Names schema (Entries.keys o.properties) :=
  ⟨h, h ▸ renderedNames_eq_self_iff ho.names⟩

/-- Whatever the bound, the rendered root and the rendered definitions name the properties of the
document, in their order, unless the correction meets a name. Those that it meets end in the plural,
and a property whose new name was there before or comes again is merged with the other. -/
theorem rendered_names {n : Nat} {root : TypeRef} {d : Document} {text : String}
    (h : (g.generateWithin s n root).result = .ok d) (hr : d.render = .ok text) :
    ∃ j, ofText? text.toList = .ok j ∧ Names j (Entries.keys d.object.properties) ∧
      ((∀ key ∈ Entries.keys d.definitions, ¬EndsInMapKey key) →
        ∀ key p, Entries.get? d.definitions key = some p → ∃ o q, p.object = some o ∧
          (j.get? "definitions").bind (·.get? key) = some q ∧
          Names q (Entries.keys o.properties)) := by
  obtain ⟨hd, hobject, hnodup, hdefinitions⟩ := generated_readable g s h
  refine ⟨d.toJson.corrected, Rendering.read_of_render hd hr,
    names_of_readable hobject d.names_corrected, fun hkeys key p hp => ?_⟩
  obtain ⟨o, ho, hreadable⟩ := hdefinitions key p hp
  exact ⟨o, p.toJson.corrected, ho, Document.definition_corrected hnodup hkeys hp,
    names_of_readable hreadable (Property.names_corrected ho)⟩

theorem shop_rendered_names : ∃ d text j item,
    (shop.generate shopSettings (.declared "Order")).result = .ok d ∧ d.render = .ok text ∧
      ofText? text.toList = .ok j ∧ (j.get? "definitions").bind (·.get? "shop_Item") = some item ∧
      item.propertyNames = ["price", "orders"] := by
  obtain ⟨d, p, o, hd, hdepth, hkeys, hp, ho, hnames⟩ : ∃ d p o,
      (shop.generate shopSettings (.declared "Order")).result = .ok d ∧
        (d.toJson.mapKeys correctKey).depth ≤ maxDepth ∧
        (∀ key ∈ Entries.keys d.definitions, ¬EndsInMapKey key) ∧
        Entries.get? d.definitions "shop_Item" = some p ∧ p.object = some o ∧
        Entries.keys o.properties = ["price", "orders"] :=
    ⟨_, _, _, rfl, by decide, by decide, rfl, rfl, rfl⟩
  obtain ⟨hreadable, _⟩ := generated_readable shop shopSettings hd
  obtain ⟨hrender, _⟩ := Rendering.render_fits hreadable hdepth
  obtain ⟨j, hj, _, hdefinitions⟩ := rendered_names hd hrender
  obtain ⟨o', item, ho', hitem, _, hiff⟩ := hdefinitions hkeys "shop_Item" p hp
  cases ho.symm.trans ho'
  rw [hnames] at hiff
  exact ⟨d, _, j, item, hd, hrender, hj, hitem, hiff.mpr (by decide)⟩

/-- A struct whose fields are called like the two keywords. -/
def drawer : TypeGraph where
  info
    | .declared "Root" => ⟨"Root", "core", none, .struct [
        { name := "additionalProperty", type := .declared "text" },
        { name := "additionalProperties", type := .declared "flag" }]⟩
    | .declared "text" => ⟨"", "", none, .primitive .string⟩
    | .declared "flag" => ⟨"", "", none, .primitive .bool⟩
    | _ => ⟨"", "", none, .any⟩
  refs := [.declared "Root", .declared "text", .declared "flag"]

/-- The document has two properties, and what is rendered has one. -/
theorem drawer_loses_a_name : ∃ d text j,
    (drawer.generate {} (.declared "Root")).result = .ok d ∧ d.render = .ok text ∧
      ofText? text.toList = .ok j ∧
      Entries.keys d.object.properties = ["additionalProperty", "additionalProperties"] ∧
      j.propertyNames = ["additionalProperties"] := by
  obtain ⟨d, hd, hdepth, hkeys⟩ : ∃ d,
      (drawer.generate {} (.declared "Root")).result = .ok d ∧
        (d.toJson.mapKeys correctKey).depth ≤ maxDepth ∧
        Entries.keys d.object.properties = ["additionalProperty", "additionalProperties"] :=
    ⟨_, rfl, by decide, rfl⟩
  obtain ⟨hreadable, _⟩ := generated_readable drawer {} hd
  obtain ⟨hrender, hread⟩ := Rendering.render_fits hreadable hdepth
  refine ⟨d, _, _, hd, hrender, hread, hkeys, d.names_corrected.trans ?_⟩
  rw [hkeys]
  decide

end Proofs.PropertyNames

end ModelSchema
