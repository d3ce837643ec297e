import ModelSchema.Proofs.JavaClasses
import ModelSchema.Proofs.Pinning
import ModelSchema.Proofs.Variation

namespace ModelSchema

/-- The property is an array, and `j` is the Java class of its items. -/
def Property.IsArrayOf (p : Property) (j : String) : Prop :=
  p.descriptor.instanceType = some .array ∧ ∃ e, p.items = some e ∧ e.javaClass? = some j

/-- The items of the struct `t` are declared as a sequence of `e`, perhaps optional. -/
def TypeGraph.DeclaresItems (g : TypeGraph) (s : Settings) (t e : TypeRef) : Prop :=
  ∃ n fields f u, g.fieldsWithin s n t = some fields ∧ LastNamed "items" fields f ∧
    g.Resolves f.type u ∧ (g.info (s.substitute u)).kind = .seq e

namespace Proofs.ListItems

open Bounds Reading Reach Roles JavaClasses Substitution Pinning

variable {g : TypeGraph} {s : Settings} {n : Nat}

theorem keepsOptional_of_nil (h : s.substitutions = []) : KeepsOptional g s := by
  rintro t ⟨r, u, hu, _⟩
  simp [Settings.substitute?, h] at hu

section

variable {f : Field} {fields : List Field} {l l' : Landmarks}

theorem noteField_items (h : g.noteField n l f = some l') :
    (f.name = "items" → l'.items = some f.type) ∧ (f.name ≠ "items" → l'.items = l.items) := by
  obtain ⟨hf, rfl⟩ | ⟨hf, rfl⟩ | ⟨hf, t, _, rfl⟩ | ⟨hf, rfl⟩ | ⟨hf, rfl⟩ := noteField_cases h
  · simp [hf]
  · simp [hf]
  · simp [hf]
  · exact ⟨fun _ => rfl, fun hne => absurd hf hne⟩
  · exact ⟨fun he => absurd hf (by simp [he]), fun _ => rfl⟩

theorem notes_items {r : TypeRef} (h : fields.foldlM (g.noteField n) {} = some l)
    (hr : l.items = some r) : ∃ f, LastNamed "items" fields f ∧ f.type = r := by
  by_cases hex : ∃ f ∈ fields, f.name = "items"
  · obtain ⟨f, hf⟩ := exists_lastNamed hex
    obtain ⟨hname, _, _, hnote, hlook⟩ := hf.foldlM_look (fun hnote => (noteField_items hnote).2) h
    cases (hr.symm.trans hlook).trans ((noteField_items hnote).1 hname)
    exact ⟨f, hf, rfl⟩
  · have hkeep : l.items = ({} : Landmarks).items :=
      foldlM_keeps_look (fun hnote => (noteField_items hnote).2) h fun f hf hn => hex ⟨f, hf, hn⟩
    cases hr.symm.trans hkeep

end

theorem listRoleWithin_list {metadata items : TypeRef} {j : String}
    (h : g.listRoleWithin s n metadata items = some (.list j)) :
    ∃ e, (g.info items).kind = .seq e ∧ g.javaTypeWithin s n (s.substitute e) = some j := by
  unfold TypeGraph.listRoleWithin at h
  cases hk : (g.info items).kind with
  | seq e =>
    simp only [hk] at h
    split at h
    · obtain ⟨j', hj, hrole⟩ := Option.bind_eq_some_iff.mp h
      cases hrole
      exact ⟨e, rfl, hj⟩
    · cases h
  | primitive _ | any | optional _ | map _ _ | struct _ | enumeration _ =>
    simp only [hk] at h
    cases h

theorem role_list {t : TypeRef} {j : String} {fields : List Field}
    (hfields : g.fieldsWithin s n t = some fields) (h : g.roleWithin s n t = some (.list j)) :
    ∃ f u e, LastNamed "items" fields f ∧ g.Resolves f.type u ∧
      (g.info (s.substitute u)).kind = .seq e ∧
      g.javaTypeWithin s n (s.substitute e) = some j := by
  rw [TypeGraph.roleWithin_eq_bind, hfields, Option.bind_some] at h
  obtain ⟨l, hl, h⟩ := Option.bind_eq_some_iff.mp h
  split at h
  · cases h
  split at h
  · cases h
  split at h
  · rename_i metadata r _ hr
    obtain ⟨items, hitems, hlist⟩ := Option.bind_eq_some_iff.mp h
    obtain ⟨u, hu, rfl⟩ := Option.map_eq_some_iff.mp hitems
    obtain ⟨f, hf, rfl⟩ := notes_items hl hr
    obtain ⟨e, hk, hj⟩ := listRoleWithin_list hlist
    exact ⟨f, u, e, hf, (resolves_iff g hu).mpr rfl, hk, hj⟩
  · cases h

theorem exprWithin_seq (hm : s.manualTypes = []) {u e : TypeRef} {x : TypeExpr}
    (hk : (g.info (s.substitute u)).kind = .seq e) (hx : g.exprWithin s n u = some x) :
    if g.isByte (s.substitute e) then x = .bytes
    else ∃ m y, g.exprWithin s m e = some y ∧ x = .list y := by
  cases n with
  | zero => cases hx
  | succ n =>
    unfold TypeGraph.exprWithin at hx
    simp only [Settings.manualType?, hm, List.reverse_nil, List.lookup_nil, hk] at hx
    split at hx
    · rename_i hb
      rw [if_pos hb]
      exact (Option.some.inj hx).symm
    · rename_i hb
      rw [if_neg hb]
      obtain ⟨y, hy, rfl⟩ := Option.map_eq_some_iff.mp hx
      exact ⟨n, y, hy, rfl⟩

theorem javaTypeWithin_byte (hm : s.manualTypes = []) {t : TypeRef} {j : String}
    (hb : g.isByte t = true) (hj : g.javaTypeWithin s n t = some j) : j = "Integer" := by
  have hk : (g.info t).kind = .primitive .uint8 := by simpa [TypeGraph.isByte] using hb
  cases n with
  | zero => cases hj
  | succ n =>
    unfold TypeGraph.javaTypeWithin at hj
    simp only [Settings.manualType?, hm, List.reverse_nil, List.lookup_nil, hk] at hj
    exact (Option.some.inj hj).symm

section

variable (p : Property) (text : Option String)

theorem described_instanceType :
    (p.described text).descriptor.instanceType = p.descriptor.instanceType := by
  cases text <;> rfl

theorem described_items : (p.described text).items = p.items := by
  cases text <;> rfl

end

theorem resourceList_injective : Function.Injective Java.resourceList := by
  intro j k h
  exact (String.append_right_inj _).mp ((String.append_left_inj _).mp h)

theorem resourceList_ne {a : String} (h : '<' ∉ a.toList) (j : String) :
    Java.resourceList j ≠ a := by
  rintro rfl
  apply h
  unfold Java.resourceList
  rw [String.toList_append, List.mem_append]
  rw [String.toList_append, List.mem_append]
  exact Or.inl (Or.inl (by decide))

theorem resourceList_mem_iff {role : Role} {j : String} :
    Java.resourceList j ∈ role.interfaces ↔ role = .list j := by
  have hplain := resourceList_ne (a := Java.kubernetesResource) (by decide) j
  have hresource := resourceList_ne (a := Java.hasMetadata) (by decide) j
  cases role with
  | resource => simp [Role.interfaces, hresource]
  | plain => simp [Role.interfaces, hplain]
  | list item => simp [Role.interfaces, hplain, resourceList_injective.eq_iff, eq_comm]

section

variable (hm : s.manualTypes = [])
include hm

theorem items_property (hopt : KeepsOptional g s) {f : Field} {u e : TypeRef} {j : String}
    {x : TypeExpr} {k : Nat} (hu : g.Resolves f.type u)
    (hk : (g.info (s.substitute u)).kind = .seq e) (hx : g.exprWithin s k f.type = some x)
    (hj : g.javaTypeWithin s n (s.substitute e) = some j) :
    (((x.property g s f.omitEmpty).described f.description).IsArrayOf j ↔
      g.isByte (s.substitute e) = false) ∧
    (g.isByte (s.substitute e) = true →
      (x.property g s f.omitEmpty).described f.description =
        Property.ofBytes.described f.description ∧ j = "Integer") := by
  obtain ⟨m, hx⟩ := exprWithin_resolved hm hopt hu hx
  have hseq := exprWithin_seq hm hk hx
  rw [Property.IsArrayOf, described_instanceType, described_items]
  cases hb : g.isByte (s.substitute e) with
  | true =>
    rw [if_pos hb] at hseq
    subst hseq
    have harray : Property.ofBytes.descriptor.instanceType ≠ some .array := by decide
    simp only [TypeExpr.property, harray, false_and, Bool.true_eq_false, true_implies, true_and]
    exact javaTypeWithin_byte hm hb hj
  | false =>
    rw [if_neg (by simp [hb])] at hseq
    obtain ⟨m, y, hy, rfl⟩ := hseq
    obtain rfl := javaTypeWithin_eq_expr g s hj hy
    simp only [Bool.false_eq_true, false_implies, and_true, iff_true]
    exact ⟨rfl, _, rfl, javaClass?_property g s y false⟩

/-- A definition whose interfaces make it a list of `j` has a property `items`. Where optional types
take no part in the substitution and no type is manual, that is an array with items of the class `j`
exactly if the items are not bytes. A sequence of bytes is a plain string, and said to be a list of
numbers. -/
theorem list_items (hopt : KeepsOptional g s) {root : TypeRef} {d : Document}
    (h : (g.generateWithin s n root).result = .ok d) {x : String × Property}
    (hx : x ∈ d.definitions) {j : String} (hj : Java.resourceList j ∈ x.2.java.interfaces) :
    ∃ t e o q, g.Reachable s (s.substitute root) t ∧ x.1 = s.qualifiedName (g.info t) ∧
      g.DeclaresItems s t e ∧ x.2.object = some o ∧ Entries.get? o.properties "items" = some q ∧
      (q.IsArrayOf j ↔ g.isByte (s.substitute e) = false) ∧
      (g.isByte (s.substitute e) = true →
        (∃ text, q = Property.ofBytes.described text) ∧ j = "Integer") := by
  obtain ⟨_, _, _, _, hg⟩ := Definitions.generateWithin_ok h
  obtain ⟨t, ht, hname, hdefines⟩ := hg.mem_definitions hx
  obtain ⟨m, fields, o, role, hfields, ho, hrole, hobject, hinterfaces⟩ := defines_fields hdefines
  rw [hinterfaces, resourceList_mem_iff] at hj
  subst hj
  obtain ⟨f, u, e, hf, hu, hk, hclass⟩ := role_list hfields hrole
  obtain ⟨y, hy, hq⟩ := fields_get? ho hf
  obtain ⟨harray, hbytes⟩ := items_property hm hopt hu hk hy hclass
  rw [← pinned_get? _ s (g.info t) (.list j) (by decide) (by decide)] at hq
  exact ⟨t, e, _, _, ht, hname.symm, ⟨m, fields, f, u, hfields, hf, hu, hk⟩, hobject, hq, harray,
    fun hb => ⟨⟨_, (hbytes hb).1⟩, (hbytes hb).2⟩⟩

end

theorem fleet_list_items : ∃ d x o q,
    (fleet.generate fleetSettings (.declared "Root")).result = .ok d ∧ x ∈ d.definitions ∧
      x.1 = "fleet_ShipList" ∧ Java.resourceList "com.example.fleet.Ship" ∈ x.2.java.interfaces ∧
      x.2.object = some o ∧ Entries.get? o.properties "items" = some q ∧
      q.IsArrayOf "com.example.fleet.Ship" := by
  obtain ⟨d, p, hd, hp, hj⟩ : ∃ d p,
      (fleet.generate fleetSettings (.declared "Root")).result = .ok d ∧
        Entries.get? d.definitions "fleet_ShipList" = some p ∧
        Java.resourceList "com.example.fleet.Ship" ∈ p.java.interfaces :=
    ⟨_, _, rfl, rfl, resourceList_mem_iff.mpr rfl⟩
  have hx := Entries.mem_of_get? hp
  obtain ⟨t, e, o, q, _, _, _, ho, hq, harray, hbytes⟩ :=
    list_items rfl (keepsOptional_of_nil rfl) hd hx hj
  refine ⟨d, _, o, q, hd, hx, rfl, hj, ho, hq, harray.mpr ?_⟩
  cases hb : fleet.isByte (fleetSettings.substitute e) with
  | false => rfl
  | true => exact absurd (hbytes hb).2 (by decide)

def ledger : TypeGraph where
  info
    | .declared "Root" => ⟨"Root", "ledger", none, .struct [
        { name := "pages", type := .declared "PageList" }]⟩
    | .declared "PageList" => ⟨"PageList", "ledger", none, .struct [
        { name := "apiVersion", type := .declared "text" },
        { name := "kind", type := .declared "text" },
        { name := "metadata", type := .standard "ListMeta" },
        { name := "items", type := .list (.declared "byte") }]⟩
    | .standard "ListMeta" => ⟨"ListMeta", "meta", none, .struct []⟩
    | .declared "text" => ⟨"", "", none, .primitive .string⟩
    | .declared "byte" => ⟨"", "", none, .primitive .uint8⟩
    | .list e => ⟨"", "", none, .seq e⟩
    | _ => ⟨"", "", none, .any⟩
  refs := [.declared "Root", .declared "PageList", .standard "ListMeta", .declared "text",
    .declared "byte", .list (.declared "byte")]

/-- With no substitution and no manual type, a list of numbers whose items are a string. -/
theorem ledger_items_not_array : ∃ d p o q,
    (ledger.generate {} (.declared "Root")).result = .ok d ∧
      Entries.get? d.definitions "ledger_PageList" = some p ∧
      Java.resourceList "Integer" ∈ p.java.interfaces ∧ p.object = some o ∧
      Entries.get? o.properties "items" = some q ∧
      q.descriptor.instanceType = some .string ∧ q.items = none :=
  ⟨_, _, _, _, rfl, rfl, resourceList_mem_iff.mpr rfl, rfl, rfl, rfl, rfl⟩

end Proofs.ListItems

end ModelSchema
