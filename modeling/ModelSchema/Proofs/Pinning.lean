import ModelSchema.Proofs.References
import ModelSchema.Proofs.Roles

namespace ModelSchema

/-- `segment` is what follows the last slash of `path`. -/
def LastSegment (path segment : String) : Prop :=
  '/' ∉ segment.toList ∧ (path = segment ∨ ∃ before, path = before ++ "/" ++ segment)

/-- The interfaces mark a resource or a list of resources. -/
def Property.IsMarked (p : Property) : Prop :=
  p.java.interfaces = [Java.hasMetadata] ∨
    ∃ item, p.java.interfaces = [Java.kubernetesResource, Java.resourceList item]

/-- The property called `name` is required and has one value only, which is its default too. -/
def ObjectOf.PinnedTo (o : ObjectDescriptor) (name value : String) : Prop :=
  name ∈ o.required ∧ ∃ q, Entries.get? o.properties name = some q ∧
    q.descriptor.default = some (.string value) ∧
    q.descriptor.enumValues = some [.string value]

/-- Neither the property nor any part of it has a default value. -/
def Property.WithoutDefaults (p : Property) : Prop :=
  ∀ q : Property, q.Part p → q.descriptor.default = none

namespace Proofs.Pinning

open Bounds Reading Roles

section

variable {p : Property} {x : TypeExpr}

theorem lastSegment_append (cs : List Char) (c : Char) : Package.lastSegment (cs ++ [c]) =
    if c = '/' then [] else Package.lastSegment cs ++ [c] := by
  by_cases hc : c = '/' <;> simp [Package.lastSegment, hc]

theorem lastSegment_splits (cs : List Char) : '/' ∉ Package.lastSegment cs ∧
    (cs = Package.lastSegment cs ∨ ∃ before, cs = before ++ '/' :: Package.lastSegment cs) := by
  induction cs using List.reverseRecOn with
  | nil => simp [Package.lastSegment]
  | append_singleton cs c ih =>
    rw [lastSegment_append]
    split
    · rename_i hc
      exact ⟨List.not_mem_nil, Or.inr ⟨cs, by rw [hc]⟩⟩
    · rename_i hc
      obtain ⟨hnot, hsplit⟩ := ih
      refine ⟨by simp [hnot, Ne.symm hc], ?_⟩
      obtain hsplit | ⟨before, hsplit⟩ := hsplit
      · exact Or.inl (congrArg (· ++ [c]) hsplit)
      · exact Or.inr ⟨before, by simpa using congrArg (· ++ [c]) hsplit⟩

theorem lastSegment_version (p : Package) : LastSegment p.path p.version := by
  obtain ⟨hnot, hsplit⟩ := lastSegment_splits p.path.toList
  refine ⟨by rwa [Package.version, String.toList_ofList], ?_⟩
  obtain hsplit | ⟨before, hsplit⟩ := hsplit
  · exact Or.inl (String.toList_injective (by rwa [Package.version, String.toList_ofList]))
  · refine Or.inr ⟨String.ofList before, String.toList_injective ?_⟩
    rw [hsplit]
    simp [Package.version]

theorem package_path {s : Settings} {path : String} {k : Package}
    (h : s.package? path = some k) : k.path = path := by
  simpa using List.find?_some h

theorem withoutDefaults_of_parts (ho : p.object = none) (hd : p.descriptor.default = none)
    (hi : ∀ r, p.items = some r → r.WithoutDefaults)
    (hm : ∀ r, p.mapValue = some r → r.WithoutDefaults) : p.WithoutDefaults := by
  intro q hq
  cases hq with
  | self => exact hd
  | property hp _ _ => simp [ho] at hp
  | items hr hq => exact hi _ hr q hq
  | mapValue hr hq => exact hm _ hr q hq

theorem withoutDefaults_of_leaf (ho : p.object = none) (hd : p.descriptor.default = none)
    (hi : p.items = none) (hm : p.mapValue = none) : p.WithoutDefaults :=
  withoutDefaults_of_parts ho hd (by simp [hi]) (by simp [hm])

theorem withoutDefaults_property (g : TypeGraph) (s : Settings) (x : TypeExpr)
    (omitEmpty : Bool) : (x.property g s omitEmpty).WithoutDefaults := by
  induction x generalizing omitEmpty with
  | primitive t => cases t <;> exact withoutDefaults_of_leaf rfl rfl rfl rfl
  | manual _ | any | enumeration _ | bytes | struct _ =>
    exact withoutDefaults_of_leaf rfl rfl rfl rfl
  | list e ih =>
    refine withoutDefaults_of_parts rfl rfl ?_ (by rintro r ⟨⟩)
    rintro r ⟨⟩
    exact ih false
  | map v ih =>
    refine withoutDefaults_of_parts rfl rfl (by rintro r ⟨⟩) ?_
    rintro r ⟨⟩
    exact ih false

theorem withoutDefaults_described (text : Option String) (h : p.WithoutDefaults) :
    (p.described text).WithoutDefaults := by
  cases text with
  | none => exact h
  | some t =>
    intro q hq
    cases hq with
    | self => exact h p (.self p)
    | property ho hr hq => exact h q (.property ho hr hq)
    | items hr hq => exact h q (.items hr hq)
    | mapValue hr hq => exact h q (.mapValue hr hq)

end

section

variable {o o' : ObjectDescriptor} {name other value : String} {y : String × Property}

theorem mem_require : other ∈ (o.require name).required ↔ other = name ∨ other ∈ o.required := by
  unfold ObjectOf.require
  split
  · rename_i hname
    exact ⟨Or.inr, fun h => h.elim (fun h => h ▸ hname) id⟩
  · simp [or_comm]

theorem pinnedTo_pin (value : String) (h : name ∈ Entries.keys o.properties) :
    (pin o name value).PinnedTo name value := by
  obtain ⟨q, hq⟩ := Option.isSome_iff_exists.mp ((Entries.get?_isSome_iff _ _).mpr h)
  unfold pin
  rw [hq]
  refine ⟨mem_require.mpr (Or.inl rfl), q.pinned value, ?_, rfl, rfl⟩
  rw [require_properties]
  exact Entries.get?_insert_self _ _ _

theorem pinnedTo_pin_of_ne {w : String} (h : o.PinnedTo name value) (hne : name ≠ other) :
    (pin o other w).PinnedTo name value := by
  obtain ⟨hrequired, q, hq, hpinned⟩ := h
  refine ⟨?_, q, by rw [pin_get? _ _ hne, hq], hpinned⟩
  unfold pin
  split
  · exact mem_require.mpr (Or.inr hrequired)
  · exact hrequired

theorem mem_pin (h : y ∈ (pin o name value).properties) : y ∈ o.properties ∨
    ∃ q, (name, q) ∈ o.properties ∧ y = (name, q.pinned value) := by
  unfold pin at h
  split at h
  · rename_i q hq
    rw [require_properties] at h
    obtain h | h := Entries.mem_insert h
    · exact Or.inr ⟨q, Entries.mem_of_get? hq, h⟩
    · exact Or.inl h
  · exact Or.inl h

variable {g : TypeGraph} {s : Settings} {n : Nat} {fields : List Field}

theorem fields_withoutDefaults (h : fields.foldlM (g.addReadField s n) o = some o')
    (ho : ∀ y ∈ o.properties, y.2.WithoutDefaults) : ∀ y ∈ o'.properties, y.2.WithoutDefaults := by
  refine foldlM_property (P := fun o => ∀ y ∈ o.properties, y.2.WithoutDefaults) h ?_ ho
  intro f _ o o' hadd ho y hy
  obtain ⟨x, _, hproperties⟩ := addReadField_properties hadd
  rw [hproperties] at hy
  obtain rfl | hy := Entries.mem_insert hy
  · exact withoutDefaults_described _ (withoutDefaults_property g s x _)
  · exact ho y hy

theorem object_withoutDefaults {t : TypeRef} (h : g.objectWithin s n t = some o) :
    ∀ y ∈ o.properties, y.2.WithoutDefaults := by
  obtain ⟨fields, _, ho⟩ := Option.bind_eq_some_iff.mp h
  exact fields_withoutDefaults ho (by simp [ObjectOf.open])

theorem mem_pinned {t : TypeInfo} {role : Role} (hy : y ∈ (s.pinned t role o).properties) :
    y ∈ o.properties ∨ role ≠ .plain ∧ (s.package? t.package).isSome ∧
      (y.1 = "apiVersion" ∨ y.1 = "kind") ∧
      ∃ value q, (y.1, q) ∈ o.properties ∧ y.2 = q.pinned value := by
  unfold Settings.pinned at hy
  split at hy
  · exact Or.inl hy
  rename_i hrole
  split at hy
  · rename_i k hk
    rw [hk]
    obtain hy | ⟨q, hq, rfl⟩ := mem_pin hy
    · obtain hy | ⟨q, hq, rfl⟩ := mem_pin hy
      · exact Or.inl hy
      · exact Or.inr ⟨hrole, rfl, Or.inl rfl, _, q, hq, rfl⟩
    · obtain hq | ⟨r, _, he⟩ := mem_pin hq
      · exact Or.inr ⟨hrole, rfl, Or.inr rfl, _, q, hq, rfl⟩
      · simp at he
  · exact Or.inl hy

theorem names_of_role {t : TypeRef} {role : Role} (hfields : g.fieldsWithin s n t = some fields)
    (h : g.roleWithin s n t = some role) (hrole : role ≠ .plain) :
    "apiVersion" ∈ fields.map (·.name) ∧ "kind" ∈ fields.map (·.name) := by
  unfold TypeGraph.roleWithin at h
  simp only [hfields, Option.bind_eq_bind, Option.bind_some] at h
  obtain ⟨l, hl, h⟩ := Option.bind_eq_some_iff.mp h
  obtain ⟨ha, hk⟩ := notes_flags hl
  simp only [Bool.false_eq_true, false_or] at ha hk
  split at h
  · cases h
    exact absurd rfl hrole
  · rename_i hboth
    obtain ⟨hversion, hkind⟩ := not_not.mp hboth
    exact ⟨ha.mp hversion, hk.mp hkind⟩

theorem keys_of_role {t : TypeRef} {role : Role} (ho : g.objectWithin s n t = some o)
    (h : g.roleWithin s n t = some role) (hrole : role ≠ .plain) :
    "apiVersion" ∈ Entries.keys o.properties ∧ "kind" ∈ Entries.keys o.properties := by
  obtain ⟨fields, hfields, ho⟩ := Option.bind_eq_some_iff.mp ho
  obtain ⟨ha, hk⟩ := names_of_role hfields h hrole
  exact ⟨(fields_keys ho).mpr (Or.inr ha), (fields_keys ho).mpr (Or.inr hk)⟩

theorem pinnedTo_pinned {t : TypeInfo} {role : Role} {k : Package} (hrole : role ≠ .plain)
    (hk : s.package? t.package = some k)
    (hkeys : "apiVersion" ∈ Entries.keys o.properties ∧ "kind" ∈ Entries.keys o.properties) :
    (s.pinned t role o).PinnedTo "apiVersion" k.apiVersion ∧
      (s.pinned t role o).PinnedTo "kind" t.name := by
  have hpin : s.pinned t role o = pin (pin o "apiVersion" k.apiVersion) "kind" t.name := by
    rw [Settings.pinned, if_neg hrole, hk]
  rw [hpin]
  refine ⟨pinnedTo_pin_of_ne (pinnedTo_pin _ hkeys.1) (by decide), pinnedTo_pin _ ?_⟩
  rw [pin_keys]
  exact hkeys.2

theorem isMarked_iff {p : Property} {role : Role} (h : p.java.interfaces = role.interfaces) :
    p.IsMarked ↔ role ≠ .plain := by
  unfold Property.IsMarked
  rw [h]
  cases role <;> simp [Role.interfaces, Java.kubernetesResource, Java.hasMetadata]

theorem defines_object {t : TypeRef} {p : Property} (h : g.Defines s t p) : ∃ n o role,
    g.objectWithin s n t = some o ∧ g.roleWithin s n t = some role ∧
      p.object = some (s.pinned (g.info t) role o) ∧ p.descriptor.default = none ∧
      (p.IsMarked ↔ role ≠ .plain) := by
  obtain ⟨n, o, role, j, ho, hrole, _, rfl⟩ := Definitions.defines_iff.mp h
  exact ⟨n, o, role, ho, hrole, rfl, rfl, isMarked_iff rfl⟩

theorem collect_object {t : TypeRef} {p q : Progress}
    (h : Walk.collect g s n t .open p = .ok o q) : g.objectWithin s n t = some o := by
  obtain ⟨fields, _, hfields, ho, _⟩ := (Growth.walk_grows g s n).2.2.1 h
  rw [TypeGraph.objectWithin, hfields]
  exact ho

/-- In a generated document the definition of a resource or a list of resources, if its package is
known, has its version and kind pinned and requires both: the version is the last segment of the
package path behind the group, if there is one, and the kind is the name of the type. Nothing else
has a default value, at any depth. Where the walk pins a property, the object has it. -/
theorem definitions_pinned {root : TypeRef} {d : Document}
    (h : (g.generateWithin s n root).result = .ok d) :
    (∀ x ∈ d.definitions, ∃ t o, g.Reachable s (s.substitute root) t ∧ g.Defines s t x.2 ∧
      x.1 = s.qualifiedName (g.info t) ∧ x.2.object = some o ∧
      (∀ k, s.package? (g.info t).package = some k → x.2.IsMarked →
        (∃ version, LastSegment (g.info t).package version ∧ o.PinnedTo "apiVersion"
          (if k.apiGroup = "" then version else k.apiGroup ++ "/" ++ version)) ∧
        o.PinnedTo "kind" (g.info t).name) ∧
      x.2.descriptor.default = none ∧
      ∀ y ∈ o.properties, y.2.WithoutDefaults ∨
        x.2.IsMarked ∧ (s.package? (g.info t).package).isSome ∧
          (y.1 = "apiVersion" ∨ y.1 = "kind") ∧
          ∃ (q : Property) (value : String), q.WithoutDefaults ∧ y.2 = q.pinned value) ∧
    (d.descriptor.default = none ∧ ∀ y ∈ d.object.properties, y.2.WithoutDefaults) ∧
    ∀ m t p o q role, Walk.collect g s m t .open p = .ok o q → g.roleWithin s m t = some role →
      role ≠ .plain → (Entries.get? o.properties "apiVersion").isSome ∧
        ∀ version, (Entries.get? (pin o "apiVersion" version).properties "kind").isSome := by
  obtain ⟨o, p, es, a, hg⟩ := Definitions.generateWithin_ok h
  refine ⟨?_, ?_, ?_⟩
  · intro x hx
    obtain ⟨t, ht, hname, hdef⟩ := hg.mem_definitions hx
    obtain ⟨m, object, role, hobject, hrole, hp, hdefault, hmarked⟩ := defines_object hdef
    refine ⟨t, _, ht, hdef, hname.symm, hp, ?_, hdefault, ?_⟩
    · intro k hk hx
      have hplain := hmarked.mp hx
      obtain ⟨hversion, hkind⟩ := pinnedTo_pinned hplain hk (keys_of_role hobject hrole hplain)
      exact ⟨⟨k.version, package_path hk ▸ lastSegment_version k, hversion⟩, hkind⟩
    · intro y hy
      rw [hmarked]
      obtain hy | ⟨hrole, hk, hname, value, q, hq, hy⟩ := mem_pinned hy
      · exact Or.inl (object_withoutDefaults hobject y hy)
      · exact Or.inr ⟨hrole, hk, hname, q, value, object_withoutDefaults hobject _ hq, hy⟩
  · rw [hg.document]
    exact ⟨rfl, object_withoutDefaults hg.object⟩
  · intro m t p o q role hcollect hrole hplain
    obtain ⟨ha, hk⟩ := keys_of_role (collect_object hcollect) hrole hplain
    refine ⟨(Entries.get?_isSome_iff _ _).mpr ha, fun version => ?_⟩
    rw [Entries.get?_isSome_iff, pin_keys]
    exact hk

end

def fleet : TypeGraph where
  info
    | .declared "Root" => ⟨"Root", "fleet", none, .struct [
        { name := "ships", type := .declared "ShipList" }]⟩
    | .declared "ShipList" => ⟨"ShipList", "fleet.example.com/api/v1", none, .struct [
        { name := "", type := .option (.declared "Versioned"), isInline := true },
        { name := "metadata", type := .option (.standard "ListMeta") },
        { name := "items", type := .list (.declared "Ship") }]⟩
    | .declared "Versioned" => ⟨"Versioned", "fleet", none, .struct [
        { name := "", type := .declared "Grouped", isInline := true },
        { name := "kind", type := .declared "text" }]⟩
    | .declared "Grouped" => ⟨"Grouped", "fleet", none, .struct [
        { name := "apiVersion", type := .declared "text" }]⟩
    | .declared "Ship" => ⟨"Ship", "fleet.example.com/api/v1", none, .struct []⟩
    | .standard "ListMeta" => ⟨"ListMeta", "meta", none, .struct []⟩
    | .declared "text" => ⟨"", "", none, .primitive .string⟩
    | .option e => ⟨"", "", none, .optional e⟩
    | .list e => ⟨"", "", none, .seq e⟩
    | _ => ⟨"", "", none, .any⟩
  refs := [.declared "Root", .declared "ShipList", .declared "Versioned", .declared "Grouped",
    .declared "Ship", .standard "ListMeta", .declared "text"]

def fleetSettings : Settings where
  packages := [⟨"fleet.example.com/api/v1", "fleet.example.com", "com.example.fleet", "fleet_"⟩]

theorem fleet_list_pinned : ∃ d x o,
    (fleet.generate fleetSettings (.declared "Root")).result = .ok d ∧ x ∈ d.definitions ∧
      x.1 = "fleet_ShipList" ∧ x.2.IsMarked ∧ x.2.object = some o ∧
      o.PinnedTo "kind" "ShipList" ∧ ∃ version,
        LastSegment "fleet.example.com/api/v1" version ∧
        o.PinnedTo "apiVersion" ("fleet.example.com/" ++ version) := by
  obtain ⟨d, p, hd, hp, hmarked⟩ : ∃ d p,
      (fleet.generate fleetSettings (.declared "Root")).result = .ok d ∧
        Entries.get? d.definitions "fleet_ShipList" = some p ∧ p.IsMarked :=
    ⟨_, _, rfl, rfl, Or.inr ⟨"com.example.fleet.Ship", rfl⟩⟩
  have hreach : fleet.Reachable fleetSettings (.declared "Root") (.declared "ShipList") :=
    .single ⟨{ name := "ships", type := .declared "ShipList" }, .own List.mem_cons_self rfl,
      .struct (s := fleetSettings) (r := .declared "ShipList") rfl rfl⟩
  obtain ⟨_, _, _, _, hg⟩ := Definitions.generateWithin_ok hd
  have hx := Entries.mem_of_get? hp
  obtain ⟨t, o, ht, _, hname, ho, hpins, _⟩ := (definitions_pinned hd).1 _ hx
  obtain rfl := hg.names_injective ht hreach hname.symm
  obtain ⟨⟨version, hversion, hpin⟩, hkind⟩ := hpins _ rfl hmarked
  exact ⟨d, _, o, hd, hx, rfl, hmarked, ho, hkind, version, hversion, hpin⟩

end Proofs.Pinning

end ModelSchema
