import Mathlib.Data.Set.Function
import ModelSchema.Proofs.Assembly
import ModelSchema.Proofs.Growth
import ModelSchema.Schema.Generate

namespace ModelSchema

namespace TypeGraph

variable (g : TypeGraph) (s : Settings)

def readDefinitionWithin (n : Nat) (t : TypeRef) : Option Property :=
  (g.finishedWithin s n t).bind (g.definitionWithin s n)

/-- `p` is the definition of the struct `t`. -/
def Defines (t : TypeRef) (p : Property) : Prop :=
  ∃ n, g.readDefinitionWithin s n t = some p

end TypeGraph

namespace Proofs.Definitions

open Bounds Reading Reach Growth

variable {g : TypeGraph} {s : Settings}

theorem definitionWithin_keeps {n m : Nat} (h : n ≤ m) (v : Visited) :
    Keeps (g.definitionWithin s n v) (g.definitionWithin s m v) :=
  (javaTypeWithin_keeps g s h v.type).bind fun _ => Keeps.refl _

theorem readDefinitionWithin_keeps {n m : Nat} (h : n ≤ m) (t : TypeRef) :
    Keeps (g.readDefinitionWithin s n t) (g.readDefinitionWithin s m t) :=
  (finishedWithin_keeps g s h t).bind (definitionWithin_keeps h)

theorem defines_unique {t : TypeRef} {p q : Property} (hp : g.Defines s t p)
    (hq : g.Defines s t q) : p = q := by
  obtain ⟨n, hp⟩ := hp
  obtain ⟨m, hq⟩ := hq
  exact unique (fun h => readDefinitionWithin_keeps h t) hp hq

theorem defines_iff {t : TypeRef} {p : Property} : g.Defines s t p ↔
    ∃ n o role j, g.objectWithin s n t = some o ∧ g.roleWithin s n t = some role ∧
      g.javaTypeWithin s n t = some j ∧
      p = {
        descriptor := { instanceType := some .object, description := (g.info t).description }
        object := some (s.pinned (g.info t) role o)
        java := { javaType := some j, interfaces := role.interfaces } } := by
  refine exists_congr fun n => ?_
  constructor
  · intro h
    obtain ⟨v, hv, hp⟩ := Option.bind_eq_some_iff.mp h
    obtain ⟨o, ho, hv⟩ := Option.bind_eq_some_iff.mp hv
    obtain ⟨role, hrole, rfl⟩ := Option.map_eq_some_iff.mp hv
    obtain ⟨j, hj, hp⟩ := Option.bind_eq_some_iff.mp hp
    cases hp
    exact ⟨o, role, j, ho, hrole, hj, rfl⟩
  · rintro ⟨o, role, j, ho, hrole, hj, rfl⟩
    simp [TypeGraph.readDefinitionWithin, TypeGraph.finishedWithin, TypeGraph.definitionWithin,
      ho, hrole, hj]

theorem entryWithin_some {n m : Nat} {v : Visited} {e : Entry}
    (hv : g.finishedWithin s m v.type = some v) (he : g.entryWithin s n v = some e) :
    e.name = s.qualifiedName (g.info v.type) ∧ e.typeName = (g.info v.type).name ∧
      g.Defines s v.type e.definition := by
  obtain ⟨p, hp, rfl⟩ := Option.map_eq_some_iff.mp he
  refine ⟨rfl, rfl, max n m, ?_⟩
  rw [TypeGraph.readDefinitionWithin, finishedWithin_keeps g s (Nat.le_max_right n m) _ v hv]
  exact definitionWithin_keeps (Nat.le_max_left n m) v p hp

structure Generated (g : TypeGraph) (s : Settings) (n : Nat) (root : TypeRef) (d : Document)
    (o : ObjectDescriptor) (p : Progress) (es : List Entry) (a : Assembly) : Prop where
  walk : Walk.ofRoot g s n (s.substitute root) = .ok o p
  entries : p.visited.mapM (g.entryWithin s n) = some es
  assembly : assemble es = (a, none)
  document : d = TypeGraph.document s (g.info (s.substitute root)) o a
  log : (g.generateWithin s n root).log = p.log ++ a.log ++
    [.generated (g.info (s.substitute root)).name d.definitions.length d.object.properties.length]

theorem generateWithin_ok {n : Nat} {root : TypeRef} {d : Document}
    (h : (g.generateWithin s n root).result = .ok d) :
    ∃ o p es a, Generated g s n root d o p es a := by
  by_cases hs : (g.info (s.substitute root)).kind.isStruct
  · unfold TypeGraph.generateWithin at h
    simp only [hs, not_true_eq_false, if_false] at h
    cases hw : Walk.ofRoot g s n (s.substitute root) with
    | error e p => simp [hw] at h
    | ok o p =>
      simp only [hw] at h
      cases he : p.visited.mapM (g.entryWithin s n) with
      | none => simp [he] at h
      | some es =>
        simp only [he] at h
        cases ha : assemble es with
        | mk a error =>
          cases error with
          | some e => simp [ha] at h
          | none =>
            simp only [ha, Except.ok.injEq] at h
            refine ⟨o, p, es, a, hw, he, ha, h.symm, ?_⟩
            unfold TypeGraph.generateWithin
            simp only [hs, not_true_eq_false, if_false, hw, he, ha, h]
  · simp [TypeGraph.generateWithin, hs] at h

namespace Generated

variable {n : Nat} {root : TypeRef} {d : Document} {o : ObjectDescriptor} {p : Progress}
  {es : List Entry} {a : Assembly}

theorem grows (h : Generated g s n root d o p es a) :
    Grows g s (g.Refers s (s.substitute root)) {} p.visited p :=
  (ofRoot_grows g s h.walk).2

theorem object (h : Generated g s n root d o p es a) :
    g.objectWithin s n (s.substitute root) = some o :=
  (ofRoot_grows g s h.walk).1

theorem names (h : Generated g s n root d o p es a) :
    es.map (·.name) = p.visited.map fun v => s.qualifiedName (g.info v.type) := by
  refine map_mapM (fun v e he => ?_) h.entries
  obtain ⟨q, _, rfl⟩ := Option.map_eq_some_iff.mp he
  rfl

theorem assembles (h : Generated g s n root d o p es a) : Assembles es a :=
  assemble_assembles h.assembly

theorem registered (h : Generated g s n root d o p es a) :
    p.log = es.map fun e => .registering e.name := by
  have hn := congrArg (List.map Event.registering) h.names
  rw [List.map_map, List.map_map] at hn
  rw [h.grows.log]
  exact hn.symm

theorem mem_entries_iff (h : Generated g s n root d o p es a) (e : Entry) :
    e ∈ es ↔ ∃ t, g.Reachable s (s.substitute root) t ∧ e.name = s.qualifiedName (g.info t) ∧
      e.typeName = (g.info t).name ∧ g.Defines s t e.definition := by
  obtain ⟨hleft, hright⟩ := mem_of_mapM h.entries
  constructor
  · intro he
    obtain ⟨v, hv, hve⟩ := hright e he
    obtain ⟨m, hm⟩ := h.grows.finished v hv
    have hreach := (mem_types_iff g s h.grows _).mp (List.mem_map_of_mem hv)
    exact ⟨v.type, hreach, entryWithin_some hm hve⟩
  · rintro ⟨t, ht, hname, htype, hdef⟩
    obtain ⟨v, hv, rfl⟩ := List.mem_map.mp ((mem_types_iff g s h.grows _).mpr ht)
    obtain ⟨m, hm⟩ := h.grows.finished v hv
    obtain ⟨f, hf, hvf⟩ := hleft v hv
    obtain ⟨hname', htype', hdef'⟩ := entryWithin_some hm hvf
    -- The walk may have read the struct under another bound, which gives the same definition.
    have he : e = f := by
      cases e
      cases f
      simp only [Entry.mk.injEq]
      exact ⟨hname.trans hname'.symm, htype.trans htype'.symm, defines_unique hdef hdef'⟩
    exact he ▸ hf

theorem get?_iff (h : Generated g s n root d o p es a) {key : String} {q : Property} :
    Entries.get? d.definitions key = some q ↔
      ∃ t, g.Reachable s (s.substitute root) t ∧ s.qualifiedName (g.info t) = key ∧
        g.Defines s t q := by
  rw [h.document]
  show Entries.get? a.definitions key = some q ↔ _
  rw [h.assembles.get?_iff]
  constructor
  · rintro ⟨e, he, rfl, rfl⟩
    obtain ⟨t, ht, hname, _, hdef⟩ := (h.mem_entries_iff e).mp he
    exact ⟨t, ht, hname.symm, hdef⟩
  · rintro ⟨t, ht, rfl, hdef⟩
    exact ⟨⟨_, (g.info t).name, q⟩, (h.mem_entries_iff _).mpr ⟨t, ht, rfl, rfl, hdef⟩, rfl, rfl⟩

theorem mem_definitions (h : Generated g s n root d o p es a) {x : String × Property}
    (hx : x ∈ d.definitions) : ∃ t, g.Reachable s (s.substitute root) t ∧
      s.qualifiedName (g.info t) = x.1 ∧ g.Defines s t x.2 := by
  have hnodup : d.definitions.keys.Nodup := by
    rw [h.document]
    exact h.assembles.keys_nodup
  exact h.get?_iff.mp ((Entries.get?_eq_some_iff hnodup).mpr hx)

theorem defined (h : Generated g s n root d o p es a) {t : TypeRef}
    (ht : g.Reachable s (s.substitute root) t) : ∃ q, g.Defines s t q := by
  obtain ⟨v, hv, rfl⟩ := List.mem_map.mp ((mem_types_iff g s h.grows _).mpr ht)
  obtain ⟨m, hm⟩ := h.grows.finished v hv
  obtain ⟨e, _, hve⟩ := (mem_of_mapM h.entries).1 v hv
  exact ⟨e.definition, (entryWithin_some hm hve).2.2⟩

theorem names_injective (h : Generated g s n root d o p es a) :
    Set.InjOn (fun t => s.qualifiedName (g.info t)) {t | g.Reachable s (s.substitute root) t} := by
  have hn := h.assembles.names
  rw [h.names] at hn
  intro t ht u hu htu
  obtain ⟨v, hv, rfl⟩ := List.mem_map.mp ((mem_types_iff g s h.grows _).mpr ht)
  obtain ⟨w, hw, rfl⟩ := List.mem_map.mp ((mem_types_iff g s h.grows _).mpr hu)
  rw [List.inj_on_of_nodup_map hn hv hw htu]

theorem debug_events (h : Generated g s n root d o p es a) :
    (g.generateWithin s n root).log.filter (·.level = .debug) =
      es.map fun e => .registering e.name := by
  have hp : p.log.filter (·.level = .debug) = p.log := by
    rw [h.registered, List.filter_eq_self]
    intro x hx
    obtain ⟨e, _, rfl⟩ := List.mem_map.mp hx
    rfl
  have ha : a.log.filter (·.level = .debug) = [] := by
    rw [List.filter_eq_nil_iff]
    intro x hx
    simp [h.assembles.log x hx]
  rw [h.log, List.filter_append, List.filter_append, hp, ha, h.registered]
  simp [Event.level]

end Generated

/-- Whatever the bound, the definitions of a document and the structs that the root reaches
correspond one to one, each struct under its name, and the debug events name every definition
exactly once. -/
theorem definitions_reachable {n : Nat} {root : TypeRef} {d : Document}
    (h : (g.generateWithin s n root).result = .ok d) :
    Set.BijOn (fun t => s.qualifiedName (g.info t)) {t | g.Reachable s (s.substitute root) t}
        {key | key ∈ d.definitions.keys} ∧
      d.definitions.keys.Nodup ∧
      (∀ t, g.Reachable s (s.substitute root) t →
        ∃ p, Entries.get? d.definitions (s.qualifiedName (g.info t)) = some p ∧ g.Defines s t p) ∧
      ((g.generateWithin s n root).log.filter (·.level = .debug)).Perm
        (d.definitions.keys.map .registering) := by
  obtain ⟨o, p, es, a, hg⟩ := generateWithin_ok h
  have hget : ∀ t, g.Reachable s (s.substitute root) t →
      ∃ p, Entries.get? d.definitions (s.qualifiedName (g.info t)) = some p ∧ g.Defines s t p := by
    intro t ht
    obtain ⟨q, hq⟩ := hg.defined ht
    exact ⟨q, hg.get?_iff.mpr ⟨t, ht, rfl, hq⟩, hq⟩
  have hkeys : d.definitions.keys.Perm (es.map (·.name)) := by
    rw [hg.document]
    exact hg.assembles.keys_perm
  refine ⟨⟨?_, hg.names_injective, ?_⟩, ?_, hget, ?_⟩
  · intro t ht
    obtain ⟨q, hq, _⟩ := hget t ht
    exact (Entries.get?_isSome_iff _ _).mp (Option.isSome_of_eq_some hq)
  · intro key hkey
    obtain ⟨q, hq⟩ := Option.isSome_iff_exists.mp ((Entries.get?_isSome_iff _ _).mpr hkey)
    obtain ⟨t, ht, hname, _⟩ := hg.get?_iff.mp hq
    exact ⟨t, ht, hname⟩
  · exact hkeys.nodup_iff.mpr hg.assembles.names
  · rw [hg.debug_events]
    have hp := hkeys.symm.map Event.registering
    rwa [List.map_map] at hp

theorem shop_definitions_reachable : ∃ d,
    (shop.generate shopSettings (.declared "Order")).result = .ok d ∧
      d.definitions.keys = ["shop_Item", "shop_Order"] ∧
      Set.BijOn (fun t => shopSettings.qualifiedName (shop.info t))
        {t | shop.Reachable shopSettings (.declared "Order") t}
        {key | key ∈ ["shop_Item", "shop_Order"]} := by
  obtain ⟨d, hd, hkeys⟩ : ∃ d,
      (shop.generate shopSettings (.declared "Order")).result = .ok d ∧
        d.definitions.keys = ["shop_Item", "shop_Order"] := ⟨_, rfl, rfl⟩
  have hbij := (definitions_reachable hd).1
  rw [hkeys] at hbij
  exact ⟨d, hd, hkeys, hbij⟩

theorem entries_perm {n n' : Nat} {root root' : TypeRef} {d d' : Document}
    {o o' : ObjectDescriptor} {p p' : Progress} {es es' : List Entry} {a a' : Assembly}
    (h : Generated g s n root d o p es a) (h' : Generated g s n' root' d' o' p' es' a')
    (hr : ∀ t, g.Reachable s (s.substitute root) t ↔ g.Reachable s (s.substitute root') t) :
    es.Perm es' := by
  rw [List.perm_ext_iff_of_nodup h.assembles.names.of_map h'.assembles.names.of_map]
  intro e
  rw [h.mem_entries_iff, h'.mem_entries_iff]
  simp only [hr]

theorem visited_complete {n : Nat} {root : TypeRef} {o : ObjectDescriptor} {p : Progress}
    (h : Walk.ofRoot g s n root = .ok o p) : ∀ v ∈ p.visited, v.object.isSome := by
  intro v hv
  obtain ⟨m, hm⟩ := (ofRoot_grows g s h).2.finished v hv
  obtain ⟨o', _, hm⟩ := Option.bind_eq_some_iff.mp hm
  obtain ⟨role, _, he⟩ := Option.map_eq_some_iff.mp hm
  rw [← he]
  rfl

/-- What a struct is defined as depends neither on the root nor on the bound. Roots that reach the
same structs have the same definitions and resources, and every definition has the fields of its
struct: none is taken from a struct whose fields were not yet described. -/
theorem definitions_independent {n n' : Nat} {root root' : TypeRef} {d d' : Document}
    (h : (g.generateWithin s n root).result = .ok d)
    (h' : (g.generateWithin s n' root').result = .ok d') :
    (∀ t, g.Reachable s (s.substitute root) t → g.Reachable s (s.substitute root') t →
      ∃ p, Entries.get? d.definitions (s.qualifiedName (g.info t)) = some p ∧
        Entries.get? d'.definitions (s.qualifiedName (g.info t)) = some p) ∧
    ((∀ t, g.Reachable s (s.substitute root) t ↔ g.Reachable s (s.substitute root') t) →
      d.definitions = d'.definitions ∧ d.resources = d'.resources) ∧
    (∀ x ∈ d.definitions, ∃ t m o role, g.Reachable s (s.substitute root) t ∧
      s.qualifiedName (g.info t) = x.1 ∧ g.objectWithin s m t = some o ∧
      g.roleWithin s m t = some role ∧ x.2.object = some (s.pinned (g.info t) role o)) ∧
    ∀ o p, Walk.ofRoot g s n (s.substitute root) = .ok o p → ∀ v ∈ p.visited, v.object.isSome := by
  obtain ⟨o, p, es, a, hg⟩ := generateWithin_ok h
  obtain ⟨o', p', es', a', hg'⟩ := generateWithin_ok h'
  refine ⟨?_, ?_, ?_, fun o p hw => visited_complete hw⟩
  · intro t ht ht'
    obtain ⟨q, hq⟩ := hg.defined ht
    exact ⟨q, hg.get?_iff.mpr ⟨t, ht, rfl, hq⟩, hg'.get?_iff.mpr ⟨t, ht', rfl, hq⟩⟩
  · intro hr
    have hp := entries_perm hg hg' hr
    have ha := hg.assembly.symm.trans
      ((assemble_eq_of_perm hp hg.assembles.names).trans hg'.assembly)
    rw [hg.document, hg'.document]
    cases ha
    exact ⟨rfl, rfl⟩
  · intro x hx
    obtain ⟨t, ht, hname, hdef⟩ := hg.mem_definitions hx
    obtain ⟨m, o, role, j, ho, hrole, -, hp⟩ := defines_iff.mp hdef
    exact ⟨t, m, o, role, ht, hname, ho, hrole, by rw [hp]⟩

theorem shop_item_independent : ∃ d d' p,
    (shop.generate shopSettings (.declared "Order")).result = .ok d ∧
      (shop.generate shopSettings (.declared "Report")).result = .ok d' ∧
      Entries.get? d.definitions "shop_Item" = some p ∧
      Entries.get? d'.definitions "shop_Item" = some p := by
  have hleads : ∀ r, shopSettings.substitute r = .declared "Item" →
      shop.Leads shopSettings r (.declared "Item") :=
    fun r hr => hr ▸ .struct (by rw [hr]; rfl) (by rw [hr]; rfl)
  have horder : shop.Reachable shopSettings (.declared "Order") (.declared "Item") :=
    .single ⟨_, .embedded List.mem_cons_self rfl (.done rfl) (.own List.mem_cons_self rfl),
      hleads _ (by decide)⟩
  have hreport : shop.Reachable shopSettings (.declared "Report") (.declared "Item") :=
    .single ⟨_, .own List.mem_cons_self rfl, hleads _ (by decide)⟩
  obtain ⟨d, hd⟩ : ∃ d, (shop.generate shopSettings (.declared "Order")).result = .ok d :=
    ⟨_, rfl⟩
  obtain ⟨d', hd'⟩ : ∃ d, (shop.generate shopSettings (.declared "Report")).result = .ok d :=
    ⟨_, rfl⟩
  obtain ⟨p, hp, hp'⟩ := (definitions_independent hd hd').1 _ horder hreport
  exact ⟨d, d', p, hd, hd', hp, hp'⟩

end Proofs.Definitions

end ModelSchema
