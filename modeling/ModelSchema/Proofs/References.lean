import ModelSchema.Proofs.Definitions

namespace ModelSchema

/-- `q` is `p` or a part of it, at any depth. -/
inductive Property.Part : Property → Property → Prop where
  | self (p : Property) : Part p p
  | property {p q r : Property} {o : ObjectDescriptor} {name : String} (ho : p.object = some o)
      (hr : (name, r) ∈ o.properties) (hq : Part q r) : Part q p
  | items {p q r : Property} (hr : p.items = some r) (hq : Part q r) : Part q p
  | mapValue {p q r : Property} (hr : p.mapValue = some r) (hq : Part q r) : Part q p

/-- `q` stands somewhere among the properties of the root, the definitions and the resources. -/
inductive Document.Contains (d : Document) (q : Property) : Prop where
  | root {name : String} {p : Property} (hp : (name, p) ∈ d.object.properties) (hq : q.Part p)
  | definition {name : String} {p : Property} (hp : (name, p) ∈ d.definitions) (hq : q.Part p)
  | resource {rs : Entries Property} {key : String} {p : Property} (hr : d.resources = some rs)
      (hp : (key, p) ∈ rs) (hq : q.Part p)

namespace Proofs.References

open Bounds Reading Reach Definitions

def RefersWithin (R : String → Option String → Prop) (p : Property) : Prop :=
  ∀ q : Property, q.Part p → ∀ path, q.reference = some path → R path q.java.javaType

section

variable {R : String → Option String → Prop} {p : Property}

theorem refersWithin_of_parts (ho : p.object = none)
    (hs : ∀ path, p.reference = some path → R path p.java.javaType)
    (hi : ∀ r, p.items = some r → RefersWithin R r)
    (hm : ∀ r, p.mapValue = some r → RefersWithin R r) : RefersWithin R p := by
  intro q hq
  cases hq with
  | self => exact hs
  | property hp _ _ => simp [ho] at hp
  | items hr hq => exact hi _ hr q hq
  | mapValue hr hq => exact hm _ hr q hq

theorem refersWithin_of_leaf (ho : p.object = none) (hs : p.reference = none)
    (hi : p.items = none) (hm : p.mapValue = none) : RefersWithin R p :=
  refersWithin_of_parts ho (fun _ h => by simp [hs] at h) (fun _ h => by simp [hi] at h)
    (fun _ h => by simp [hm] at h)

theorem refersWithin_descriptor (dsc : Descriptor) (h : RefersWithin R p) :
    RefersWithin R { p with descriptor := dsc } := by
  intro q hq
  cases hq with
  | self => exact h p (.self p)
  | property ho hr hq => exact h q (.property ho hr hq)
  | items hr hq => exact h q (.items hr hq)
  | mapValue hr hq => exact h q (.mapValue hr hq)

theorem refersWithin_described (text : Option String) (h : RefersWithin R p) :
    RefersWithin R (p.described text) := by
  cases text with
  | none => exact h
  | some t => exact refersWithin_descriptor _ h

def ObjectRefersWithin (R : String → Option String → Prop) (o : ObjectDescriptor) : Prop :=
  ∀ x ∈ o.properties, RefersWithin R x.2

variable {o : ObjectDescriptor}

theorem object_insert (name : String) (h : ObjectRefersWithin R o) (hp : RefersWithin R p) :
    ObjectRefersWithin R (o.insert name p) := by
  intro x hx
  obtain rfl | hx := Entries.mem_insert hx
  · exact hp
  · exact h x hx

theorem object_require (name : String) (h : ObjectRefersWithin R o) :
    ObjectRefersWithin R (o.require name) := by
  unfold ObjectOf.require
  split <;> exact h

theorem object_addField (g : TypeGraph) (f : Field) (h : ObjectRefersWithin R o)
    (hp : RefersWithin R p) : ObjectRefersWithin R (g.addField o f p) := by
  have hi := object_insert f.name h (refersWithin_described f.description hp)
  unfold TypeGraph.addField
  dsimp only
  split
  · exact object_require f.name hi
  · exact hi

theorem object_pin (name value : String) (h : ObjectRefersWithin R o) :
    ObjectRefersWithin R (pin o name value) := by
  unfold pin
  split
  · rename_i q hq
    exact object_require name
      (object_insert name h (refersWithin_descriptor _ (h _ (Entries.mem_of_get? hq))))
  · exact h

theorem object_pinned (s : Settings) (t : TypeInfo) (role : Role) (h : ObjectRefersWithin R o) :
    ObjectRefersWithin R (s.pinned t role o) := by
  unfold Settings.pinned
  split
  · exact h
  split
  · exact object_pin _ _ (object_pin _ _ h)
  · exact h

end

variable (g : TypeGraph) (s : Settings)

/-- A reference to a struct in `P`, with the Java class of the struct beside it. -/
def RefersTo (P : TypeRef → Prop) (path : String) (javaType : Option String) : Prop :=
  ∃ u, P u ∧ path = Property.definitionsPath ++ s.qualifiedName (g.info u) ∧
    javaType = some (s.structJavaType (g.info u))

theorem property_refers {P : TypeRef → Prop} (x : TypeExpr) (omitEmpty : Bool)
    (h : ∀ u, x.target? = some u → P u) :
    RefersWithin (RefersTo g s P) (x.property g s omitEmpty) := by
  induction x generalizing omitEmpty with
  | manual t => exact refersWithin_of_leaf rfl rfl rfl rfl
  | primitive t => cases t <;> exact refersWithin_of_leaf rfl rfl rfl rfl
  | any => exact refersWithin_of_leaf rfl rfl rfl rfl
  | enumeration values => exact refersWithin_of_leaf rfl rfl rfl rfl
  | bytes => exact refersWithin_of_leaf rfl rfl rfl rfl
  | list e ih =>
    refine refersWithin_of_parts rfl (fun _ h => by cases h) ?_ (fun _ h => by cases h)
    intro r hr
    cases hr
    exact ih false h
  | map v ih =>
    refine refersWithin_of_parts rfl (fun _ h => by cases h) (fun _ h => by cases h) ?_
    intro r hr
    cases hr
    exact ih false h
  | struct t =>
    refine refersWithin_of_parts rfl ?_ (fun _ h => by cases h) (fun _ h => by cases h)
    intro path hp
    cases hp
    exact ⟨t, h t rfl, rfl, rfl⟩

theorem fields_refer {P : TypeRef → Prop} {n : Nat} {fs : List Field} {o o' : ObjectDescriptor}
    (h : fs.foldlM (g.addReadField s n) o = some o')
    (hfs : ∀ f ∈ fs, ∀ u, g.Leads s f.type u → P u)
    (ho : ObjectRefersWithin (RefersTo g s P) o) : ObjectRefersWithin (RefersTo g s P) o' := by
  refine foldlM_property h ?_ ho
  intro f hf o o' hadd ho
  obtain ⟨x, hx, rfl⟩ := Option.map_eq_some_iff.mp hadd
  apply object_addField g f ho
  apply property_refers g s x
  intro u hu
  exact hfs f hf u ((leads_iff g s hx).mpr hu)

theorem object_refers {P : TypeRef → Prop} {n : Nat} {t : TypeRef} {o : ObjectDescriptor}
    (h : g.objectWithin s n t = some o) (hP : ∀ u, g.Refers s t u → P u) :
    ObjectRefersWithin (RefersTo g s P) o := by
  obtain ⟨fs, hfs, ho⟩ := Option.bind_eq_some_iff.mp h
  refine fields_refer g s ho ?_ (fun x hx => by cases hx)
  intro f hf u hu
  exact hP u ⟨f, (hasField_iff g s hfs).mpr hf, hu⟩

theorem definition_refers {P : TypeRef → Prop} {t : TypeRef} {p : Property}
    (h : g.Defines s t p) (hP : ∀ u, g.Refers s t u → P u) :
    RefersWithin (RefersTo g s P) p := by
  obtain ⟨n, o, role, j, ho, _, _, rfl⟩ := defines_iff.mp h
  intro q hq path hpath
  cases hq with
  | self => cases hpath
  | property hobj hr hq =>
    cases hobj
    exact object_pinned s _ role (object_refers g s ho hP) _ hr q hq path hpath
  | items hr _ => cases hr
  | mapValue hr _ => cases hr

theorem leads_struct {r u : TypeRef} (h : g.Leads s r u) :
    s.manualType? u = none ∧ ∃ fields, (g.info u).kind = .struct fields := by
  induction h with
  | struct hm hk => exact ⟨hm, _, hk⟩
  | optional _ _ _ ih => exact ih
  | seq _ _ _ _ ih => exact ih
  | map _ _ _ ih => exact ih

theorem reachable_struct {root u : TypeRef} (h : g.Reachable s root u) :
    s.manualType? u = none ∧ ∃ fields, (g.info u).kind = .struct fields := by
  cases h with
  | single hu =>
    obtain ⟨f, _, hu⟩ := hu
    exact leads_struct g s hu
  | tail _ hu =>
    obtain ⟨f, _, hu⟩ := hu
    exact leads_struct g s hu

theorem defines_javaType {t : TypeRef} {p : Property} (h : g.Defines s t p)
    (hm : s.manualType? t = none) {fields : List Field} (hk : (g.info t).kind = .struct fields) :
    p.java.javaType = some (s.structJavaType (g.info t)) := by
  obtain ⟨n, o, role, j, _, _, hj, rfl⟩ := defines_iff.mp h
  cases n with
  | zero => cases hj
  | succ n =>
    unfold TypeGraph.javaTypeWithin at hj
    simp only [hm, hk] at hj
    exact hj.symm

/-- Whatever the bound, every reference in a generated document leads to one of its definitions,
and the Java class beside the reference is the one of the definition. -/
theorem references_resolve {n : Nat} {root : TypeRef} {d : Document}
    (h : (g.generateWithin s n root).result = .ok d) {q : Property} (hq : d.Contains q)
    {path : String} (hpath : q.reference = some path) :
    ∃ key p j, path = "#/definitions/" ++ key ∧ Entries.get? d.definitions key = some p ∧
      q.java.javaType = some j ∧ p.java.javaType = some j := by
  obtain ⟨o, p, es, a, hg⟩ := generateWithin_ok h
  have hentry : ∀ e ∈ es,
      RefersWithin (RefersTo g s (g.Reachable s (s.substitute root))) e.definition := by
    intro e he
    obtain ⟨t, ht, _, _, hdef⟩ := (hg.mem_entries_iff e).mp he
    exact definition_refers g s hdef fun u hu => ht.tail hu
  have hrefers : RefersTo g s (g.Reachable s (s.substitute root)) path q.java.javaType := by
    have hdoc := hg.document
    cases hq with
    | root hp hq =>
      rw [hdoc] at hp
      exact object_refers g s hg.object (fun u hu => .single hu) _ hp q hq path hpath
    | definition hp hq =>
      rw [hdoc] at hp
      obtain ⟨e, he, hpe⟩ := List.mem_map.mp (hg.assembles.definitions.mem_iff.mp hp)
      cases hpe
      exact hentry e he q hq path hpath
    | resource hr hp hq =>
      rw [hdoc] at hr
      cases hr
      obtain ⟨e, he, hpe⟩ := hg.assembles.resources _ hp
      cases hpe
      exact hentry e he q hq path hpath
  obtain ⟨u, hu, rfl, hj⟩ := hrefers
  obtain ⟨hm, fields, hk⟩ := reachable_struct g s hu
  obtain ⟨def', hdef⟩ := hg.defined hu
  exact ⟨_, def', _, rfl, hg.get?_iff.mpr ⟨u, hu, rfl, hdef⟩, hj, defines_javaType g s hdef hm hk⟩

theorem shop_reference_resolves : ∃ d q key p j,
    (shop.generate shopSettings (.declared "Order")).result = .ok d ∧ d.Contains q ∧
      q.reference = some ("#/definitions/" ++ key) ∧ Entries.get? d.definitions key = some p ∧
      q.java.javaType = some j ∧ p.java.javaType = some j := by
  obtain ⟨d, item, o, orders, q, hd, hitem, ho, horders, hq, hpath⟩ : ∃ d item o orders q,
      (shop.generate shopSettings (.declared "Order")).result = .ok d ∧
        Entries.get? d.definitions "shop_Item" = some item ∧ item.object = some o ∧
        Entries.get? o.properties "orders" = some orders ∧ orders.mapValue = some q ∧
        q.reference = some "#/definitions/shop_Order" :=
    ⟨_, _, _, _, _, rfl, rfl, rfl, rfl, rfl, rfl⟩
  have hc : d.Contains q := .definition (Entries.mem_of_get? hitem)
    (.property ho (Entries.mem_of_get? horders) (.mapValue hq (.self q)))
  obtain ⟨key, p, j, hkey, hp, hj, hj'⟩ := references_resolve shop shopSettings hd hc hpath
  exact ⟨d, q, key, p, j, hd, hc, hkey ▸ hpath, hp, hj, hj'⟩

end Proofs.References

end ModelSchema
