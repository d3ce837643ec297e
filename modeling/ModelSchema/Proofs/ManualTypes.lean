import ModelSchema.Proofs.Pinning
import ModelSchema.Proofs.Variation

namespace ModelSchema

namespace TypeGraph

variable (g : TypeGraph) (s : Settings)

/-- The struct `t` exists in Java already, as `javaType`, and is neither the root nor embedded by
another struct. -/
structure Sealed (root t : TypeRef) (javaType : String) : Prop where
  struct : (g.info t).kind.isStruct = true
  manual : s.manualType? t = some javaType
  not_root : s.substitute root ≠ t
  not_embedded : ∀ u, u ≠ t → ∀ f ∈ (g.info u).kind.fields, f.isInline = true →
    ∀ r, g.Resolves f.type r → s.substitute r ≠ t

/-- `f` is the field of the struct `t`, or of a struct that it embeds, whose property goes by
`name`. -/
def Supplies (t : TypeRef) (name : String) (f : Field) : Prop :=
  ∃ n fields, g.fieldsWithin s n t = some fields ∧ LastNamed name fields f

/-- What stands for `r` is `p`. Inside it, as an item or a value, what stands for the reference `r'`
is `p'`, which is missing where the one has no such part that the other asks for. -/
inductive Shows : TypeRef → Option Property → TypeRef → Option Property → Prop where
  | self (r : TypeRef) (p : Option Property) : Shows r p r p
  | optional {r e r' : TypeRef} {p p' : Option Property}
      (hm : s.manualType? (s.substitute r) = none)
      (hk : (g.info (s.substitute r)).kind = .optional e) (h : Shows e p r' p') : Shows r p r' p'
  | item {r e r' : TypeRef} {p p' : Option Property}
      (hm : s.manualType? (s.substitute r) = none)
      (hk : (g.info (s.substitute r)).kind = .seq e) (hb : g.isByte (s.substitute e) = false)
      (h : Shows e (p.bind (·.items)) r' p') : Shows r p r' p'
  | value {r k v r' : TypeRef} {p p' : Option Property}
      (hm : s.manualType? (s.substitute r) = none)
      (hk : (g.info (s.substitute r)).kind = .map k v)
      (h : Shows v (p.bind (·.mapValue)) r' p') : Shows r p r' p'

/-- The property `p` stands for `r`. Every part of it stands for a reference, and what stands for
the type `t` says that it is an object of the Java type `javaType`, and nothing else. -/
structure ShowsAs (t : TypeRef) (javaType : String) (r : TypeRef) (p : Property) : Prop where
  parts : ∀ x : Property, x.Part p → ∃ r', g.Shows s r (some p) r' (some x)
  exact : ∀ r' x, g.Shows s r (some p) r' x → s.substitute r' = t → x = some {
    descriptor := { instanceType := some .object }
    java := { existingJavaType := some javaType } }

end TypeGraph

namespace Proofs.ManualTypes

open Bounds Reach Reading Roles

theorem mapM_congr {α β : Type} {f f' : α → Option β} {xs : List α} (h : ∀ x ∈ xs, f' x = f x) :
    xs.mapM f' = xs.mapM f := by
  induction xs with
  | nil => rfl
  | cons x xs ih =>
    rw [List.mapM_cons, List.mapM_cons, h x List.mem_cons_self,
      ih fun y hy => h y (List.mem_cons_of_mem _ hy)]

section

variable {g : TypeGraph} {s : Settings} {root t : TypeRef} {javaType : String}
  (h : g.Sealed s root t javaType) (fields : List Field)
include h

theorem sealed_resembles : g.Resembles (g.withFields t fields) := by
  apply TypeGraph.withFields_resembles
  cases hk : (g.info t).kind with
  | struct fs => exact ⟨fs, rfl⟩
  | primitive _ | any | optional _ | seq _ | map _ _ | enumeration _ =>
    have hs := h.struct
    simp [hk, Kind.isStruct] at hs

theorem ne_of_manual {u : TypeRef} (hm : s.manualType? u = none) : u ≠ t := by
  rintro rfl
  simp [h.manual] at hm

theorem sealed_sameClasses : TypeGraph.Resembles.SameClasses s g (g.withFields t fields) := by
  intro u hm
  rw [TypeGraph.withFields_of_ne fields (ne_of_manual h hm)]

theorem embedded_ne {u e : TypeRef} {f : Field} {n : Nat} (hu : u ≠ t)
    (hf : f ∈ (g.info u).kind.fields) (hi : f.isInline = true)
    (he : g.embeddedWithin s n f.type = some e) : e ≠ t := by
  obtain ⟨r, hr, rfl⟩ := Option.map_eq_some_iff.mp he
  exact h.not_embedded u hu f hf hi r ((resolves_iff g hr).mpr rfl)

theorem fieldsWithin_sealed (n : Nat) {u : TypeRef} (hu : u ≠ t) :
    (g.withFields t fields).fieldsWithin s n u = g.fieldsWithin s n u := by
  induction n generalizing u with
  | zero => rfl
  | succ n ih =>
    rw [fieldsWithin_succ, fieldsWithin_succ, TypeGraph.withFields_of_ne fields hu]
    refine congrArg _ (mapM_congr fun f hf => ?_)
    rw [TypeGraph.partWithin, TypeGraph.partWithin, (sealed_resembles h fields).embeddedWithin_eq]
    split
    · rename_i hi
      cases he : g.embeddedWithin s n f.type with
      | none => rfl
      | some e => exact ih (embedded_ne h hu hf hi he)
    · rfl

theorem roleWithin_sealed (n : Nat) {u : TypeRef} (hu : u ≠ t) :
    (g.withFields t fields).roleWithin s n u = g.roleWithin s n u := by
  rw [TypeGraph.roleWithin_eq_bind, TypeGraph.roleWithin_eq_bind, fieldsWithin_sealed h fields n hu]
  exact congrArg _ (funext fun fs =>
    (sealed_resembles h fields).roleOfWithin_eq (sealed_sameClasses h fields) n fs)

end

/-- The parts of the walk do the same whatever the fields of `t` are. The fields that are collected
are those of other structs. -/
structure WalksSame (g g' : TypeGraph) (s : Settings) (t : TypeRef) (n : Nat) : Prop where
  collect : ∀ u, u ≠ t → ∀ o, Walk.collect g' s n u o = Walk.collect g s n u o
  collectField : ∀ u, u ≠ t → ∀ f ∈ (g.info u).kind.fields, ∀ owner o,
    Walk.collectField g' s n owner o f = Walk.collectField g s n owner o f
  describe : ∀ owner r omitEmpty,
    Walk.describe g' s n owner r omitEmpty = Walk.describe g s n owner r omitEmpty
  visit : ∀ u, s.manualType? u = none → Walk.visit g' s n u = Walk.visit g s n u

section

variable {g : TypeGraph} {s : Settings} {root t : TypeRef} {javaType : String}
  (h : g.Sealed s root t javaType) (fields : List Field) {n : Nat}
  (ih : WalksSame g (g.withFields t fields) s t n)
include h ih

omit h in
theorem collect_sealed {u : TypeRef} (hu : u ≠ t) (o : ObjectDescriptor) :
    Walk.collect (g.withFields t fields) s (n + 1) u o = Walk.collect g s (n + 1) u o := by
  rw [Walk.collect, Walk.collect, TypeGraph.withFields_of_ne fields hu]
  exact Substitution.foldlM_congr (fun f hf o => ih.collectField u hu f hf u o) o

theorem collectField_sealed {u : TypeRef} (hu : u ≠ t) {f : Field}
    (hf : f ∈ (g.info u).kind.fields) (owner : TypeRef) (o : ObjectDescriptor) :
    Walk.collectField (g.withFields t fields) s (n + 1) owner o f =
      Walk.collectField g s (n + 1) owner o f := by
  have hg := sealed_resembles h fields
  rw [Walk.collectField, Walk.collectField]
  simp only [hg.embeddedWithin_eq, hg.isStruct_eq, hg.displayName_eq, hg.addField_eq, ih.describe]
  split
  · rename_i hi
    cases he : g.embeddedWithin s n f.type with
    | none => rfl
    | some e =>
      simp only [Walk.ofOption, pure_bind, ih.collect e (embedded_ne h hu hf hi he)]
  · rfl

theorem describe_sealed (owner r : TypeRef) (omitEmpty : Bool) :
    Walk.describe (g.withFields t fields) s (n + 1) owner r omitEmpty =
      Walk.describe g s (n + 1) owner r omitEmpty := by
  have hg := sealed_resembles h fields
  have hj := sealed_sameClasses h fields
  rw [Walk.describe, Walk.describe]
  cases hm : s.manualType? (s.substitute r) with
  | some j => rfl
  | none =>
    simp only [TypeGraph.withFields_of_ne fields (ne_of_manual h hm), hg.isByte_eq,
      hg.resolveWithin_eq, hg.isKey_eq, hg.javaTypeWithin_eq hj, hg.displayName_eq, ih.describe,
      ih.visit _ hm]

theorem visit_sealed {u : TypeRef} (hm : s.manualType? u = none) :
    Walk.visit (g.withFields t fields) s (n + 1) u = Walk.visit g s (n + 1) u := by
  have hu := ne_of_manual h hm
  rw [Walk.visit, Walk.visit]
  simp only [TypeGraph.withFields_of_ne fields hu, ih.collect u hu, roleWithin_sealed h fields n hu]

end

section

variable {g : TypeGraph} {s : Settings} {root t : TypeRef} {javaType : String}

theorem walksSame (h : g.Sealed s root t javaType) (fields : List Field) (n : Nat) :
    WalksSame g (g.withFields t fields) s t n := by
  -- By induction on the bound. From structs other than `t` only such structs are visited or
  -- collected.
  induction n with
  | zero =>
    exact {
      collect := fun _ _ _ => rfl
      collectField := fun _ _ _ _ _ _ => rfl
      describe := fun _ _ _ => rfl
      visit := fun _ _ => rfl }
  | succ n ih =>
    exact {
      collect := fun u hu o => collect_sealed fields ih hu o
      collectField := fun u hu f hf owner o => collectField_sealed h fields ih hu hf owner o
      describe := describe_sealed h fields ih
      visit := fun u hm => visit_sealed h fields ih hm }

theorem generateWithin_sealed (h : g.Sealed s root t javaType) (fields : List Field) (n : Nat) :
    (g.withFields t fields).generateWithin s n root = g.generateWithin s n root := by
  have hentry : (g.withFields t fields).entryWithin s n = g.entryWithin s n :=
    funext ((sealed_resembles h fields).entryWithin_eq (sealed_sameClasses h fields) n)
  simp only [TypeGraph.generateWithin, Walk.ofRoot, TypeGraph.withFields_of_ne fields h.not_root,
    (walksSame h fields n).collect _ h.not_root, hentry]

theorem part_of_leaf {p q : Property} (ho : p.object = none) (hi : p.items = none)
    (hv : p.mapValue = none) (hq : q.Part p) : q = p := by
  cases hq with
  | self => rfl
  | property h _ _ => simp [ho] at h
  | items h _ => simp [hi] at h
  | mapValue h _ => simp [hv] at h

theorem shows_parts {n : Nat} {r : TypeRef} {x : TypeExpr} {omitEmpty : Bool} {q : Property}
    (hx : g.exprWithin s n r = some x) (hq : q.Part (x.property g s omitEmpty)) :
    ∃ r', g.Shows s r (some (x.property g s omitEmpty)) r' (some q) := by
  induction n generalizing r x omitEmpty with
  | zero => cases hx
  | succ n ih =>
    have hleaf (h : q = x.property g s omitEmpty) :
        ∃ r', g.Shows s r (some (x.property g s omitEmpty)) r' (some q) :=
      ⟨r, by rw [h]; exact .self r _⟩
    unfold TypeGraph.exprWithin at hx
    dsimp only at hx
    cases hm : s.manualType? (s.substitute r) with
    | some j =>
      simp only [hm, Option.some.injEq] at hx
      subst hx
      exact hleaf (part_of_leaf rfl rfl rfl hq)
    | none =>
      simp only [hm] at hx
      cases hk : (g.info (s.substitute r)).kind with
      | optional e =>
        simp only [hk] at hx
        obtain ⟨r', h⟩ := ih hx hq
        exact ⟨r', .optional hm hk h⟩
      | seq e =>
        simp only [hk] at hx
        cases hb : g.isByte (s.substitute e) with
        | true =>
          simp only [hb, if_true, Option.some.injEq] at hx
          subst hx
          exact hleaf (part_of_leaf rfl rfl rfl hq)
        | false =>
          simp only [hb, Bool.false_eq_true, if_false, Option.map_eq_some_iff] at hx
          obtain ⟨x', hx', rfl⟩ := hx
          cases hq with
          | self => exact hleaf rfl
          | property ho _ _ => cases ho
          | mapValue hr _ => cases hr
          | items hr hq =>
            cases hr
            obtain ⟨r', h⟩ := ih hx' hq
            exact ⟨r', .item hm hk hb h⟩
      | map k v =>
        simp only [hk, Option.map_eq_some_iff] at hx
        obtain ⟨x', hx', rfl⟩ := hx
        cases hq with
        | self => exact hleaf rfl
        | property ho _ _ => cases ho
        | items hr _ => cases hr
        | mapValue hr hq =>
          cases hr
          obtain ⟨r', h⟩ := ih hx' hq
          exact ⟨r', .value hm hk h⟩
      | primitive p =>
        simp only [hk, Option.some.injEq] at hx
        subst hx
        cases p <;> exact hleaf (part_of_leaf rfl rfl rfl hq)
      | any | struct _ | enumeration _ =>
        simp only [hk, Option.some.injEq] at hx
        subst hx
        exact hleaf (part_of_leaf rfl rfl rfl hq)

theorem shows_exact (hm : s.manualType? t = some javaType) {n : Nat} {r r' : TypeRef}
    {x : TypeExpr} {omitEmpty : Bool} {y : Option Property} (hx : g.exprWithin s n r = some x)
    (hy : g.Shows s r (some (x.property g s omitEmpty)) r' y) (ht : s.substitute r' = t) :
    y = some (.ofManual javaType) := by
  induction n generalizing r x omitEmpty with
  | zero => cases hx
  | succ n ih =>
    unfold TypeGraph.exprWithin at hx
    dsimp only at hx
    cases hy with
    | self =>
      simp only [ht, hm, Option.some.injEq] at hx
      subst hx
      rfl
    | optional hm hk hy =>
      simp only [hm, hk] at hx
      exact ih hx hy
    | item hm hk hb hy =>
      simp only [hm, hk, hb, Bool.false_eq_true, if_false, Option.map_eq_some_iff] at hx
      obtain ⟨x', hx', rfl⟩ := hx
      exact ih hx' hy
    | value hm hk hy =>
      simp only [hm, hk, Option.map_eq_some_iff] at hx
      obtain ⟨x', hx', rfl⟩ := hx
      exact ih hx' hy

theorem fields_nodup {n : Nat} {fs : List Field} {o : ObjectDescriptor}
    (h : fs.foldlM (g.addReadField s n) .open = some o) : (Entries.keys o.properties).Nodup := by
  refine foldlM_property (P := fun o => (Entries.keys o.properties).Nodup) h ?_ ?_
  · intro f _ a a' hadd ha
    obtain ⟨_, _, hproperties⟩ := addReadField_properties hadd
    rw [hproperties]
    exact Entries.keys_insert_nodup ha _ _
  · exact List.nodup_nil

theorem object_shows (hm : s.manualType? t = some javaType) {n : Nat} {u : TypeRef}
    {o : ObjectDescriptor} (ho : g.objectWithin s n u = some o) {y : String × Property}
    (hy : y ∈ o.properties) : ∃ f q, g.Supplies s u y.1 f ∧
      g.ShowsAs s t javaType f.type q ∧ y.2 = q.described f.description := by
  obtain ⟨fs, hfs, hfold⟩ := Option.bind_eq_some_iff.mp ho
  have hname : y.1 ∈ fs.map (·.name) := by
    refine ((fields_keys hfold).mp (List.mem_map_of_mem hy)).resolve_left ?_
    exact List.not_mem_nil
  obtain ⟨f, hf⟩ := exists_lastNamed (List.mem_map.mp hname)
  obtain ⟨x, hx, hget⟩ := fields_get? hfold hf
  have hvalue := (Entries.get?_eq_some_iff (fields_nodup hfold)).mpr hy
  rw [hget] at hvalue
  refine ⟨f, x.property g s f.omitEmpty, ⟨n, fs, hfs, hf⟩, ⟨?_, ?_⟩, ?_⟩
  · exact fun q hq => shows_parts hx hq
  · exact fun r' q hq ht => shows_exact hm hx hq ht
  · exact (Option.some.inj hvalue).symm

/-- The fields of a struct that exists in Java already may be what they like: the schema or the
error is the same, and so is the log. In the schema the struct has no definition, and wherever it
is used, as a property, an item or a value of a map, stands the Java type that exists; a property
may have a description too. Only a pinned version or kind shows more than that. -/
theorem generate_sealed (h : g.Sealed s root t javaType) :
    (∀ fields, (g.withFields t fields).generate s root = g.generate s root ∧
      ∀ n, (g.withFields t fields).generateWithin s n root = g.generateWithin s n root) ∧
    ∀ n d, (g.generateWithin s n root).result = .ok d →
      ¬g.Reachable s (s.substitute root) t ∧
      (∀ x ∈ d.definitions, ∃ u o, u ≠ t ∧ g.Reachable s (s.substitute root) u ∧
        x.1 = s.qualifiedName (g.info u) ∧ g.Defines s u x.2 ∧ x.2.object = some o ∧
        ∀ y ∈ o.properties, ∃ f q, g.Supplies s u y.1 f ∧ g.ShowsAs s t javaType f.type q ∧
          (y.2 = q.described f.description ∨
            x.2.IsMarked ∧ (s.package? (g.info u).package).isSome ∧
              (y.1 = "apiVersion" ∨ y.1 = "kind") ∧
              ∃ value, y.2 = (q.described f.description).pinned value)) ∧
      ∀ y ∈ d.object.properties, ∃ f q, g.Supplies s (s.substitute root) y.1 f ∧
        g.ShowsAs s t javaType f.type q ∧ y.2 = q.described f.description := by
  refine ⟨fun fields => ⟨generateWithin_sealed h fields g.depth, generateWithin_sealed h fields⟩,
    fun n d hd => ?_⟩
  obtain ⟨object, p, es, a, hg⟩ := Definitions.generateWithin_ok hd
  have hmanual {u : TypeRef} (hu : g.Reachable s (s.substitute root) u) :
      s.manualType? u = none := (References.reachable_struct g s hu).1
  refine ⟨?_, ?_, ?_⟩
  · intro ht
    exact ne_of_manual h (hmanual ht) rfl
  · intro x hx
    obtain ⟨u, hu, hname, hdef⟩ := hg.mem_definitions hx
    obtain ⟨m, o, role, ho, _, hp, _, hmarked⟩ := Pinning.defines_object hdef
    refine ⟨u, _, ne_of_manual h (hmanual hu), hu, hname.symm, hdef, hp, fun y hy => ?_⟩
    obtain hy | ⟨hplain, hk, hname, value, p, hp, hy⟩ := Pinning.mem_pinned hy
    · obtain ⟨f, q, hf, hq, hy⟩ := object_shows h.manual ho hy
      exact ⟨f, q, hf, hq, Or.inl hy⟩
    · obtain ⟨f, q, hf, hq, rfl⟩ := object_shows h.manual ho hp
      exact ⟨f, q, hf, hq, Or.inr ⟨hmarked.mpr hplain, hk, hname, value, hy⟩⟩
  · intro y hy
    rw [hg.document] at hy
    exact object_shows h.manual hg.object hy

end

def badMoney : List Field :=
  [{ name := "amount", type := .declared "text", isInline := true }]

theorem shop_money_sealed : shop.Sealed shopSettings (.declared "Order") (.declared "Money")
    "java.math.BigDecimal" where
  struct := rfl
  manual := rfl
  not_root := by decide
  not_embedded := by
    intro u _ f hf hi r hr
    have htype : f.type = .declared "Base" := by
      revert hf
      simp only [shop]
      split <;> simp only [Kind.fields, List.mem_cons, List.not_mem_nil, or_false] <;> grind
    rw [htype] at hr
    cases hr with
    | done _ => decide
    | optional hk _ => cases hk

theorem shop_generate_sealed :
    shop.Sealed shopSettings (.declared "Order") (.declared "Money") "java.math.BigDecimal" ∧
    ∃ d, (shop.generate shopSettings (.declared "Order")).result = .ok d ∧
      ((shop.withFields (.declared "Money") badMoney).generate shopSettings
        (.declared "Order")).result = .ok d ∧
      ¬shop.Reachable shopSettings (.declared "Order") (.declared "Money") := by
  obtain ⟨hsame, hsealed⟩ := generate_sealed shop_money_sealed
  obtain ⟨d, hd⟩ : ∃ d, (shop.generate shopSettings (.declared "Order")).result = .ok d :=
    ⟨_, rfl⟩
  exact ⟨shop_money_sealed, d, hd, by rw [(hsame badMoney).1, hd], (hsealed _ d hd).1⟩

end Proofs.ManualTypes

end ModelSchema
