import ModelSchema.Proofs.Termination
import ModelSchema.Proofs.Variation

namespace ModelSchema

/-- Where `x` comes to an end, `y` does the same, save that it may fail with an error of its own. -/
def Mirrors {α : Type} (x y : Walk α) : Prop :=
  ∀ p, (∃ q, x p = .error .endless q) ∨ y p = x p ∨
    ∃ e e' q, x p = .error e q ∧ y p = .error e' q ∧ e' ≠ .endless

namespace Mirrors

variable {α β : Type}

theorem of_settles {x y : Walk α} (h : Settles x y) : Mirrors x y :=
  fun p => (h p).imp_right Or.inl

theorem refl (x : Walk α) : Mirrors x x :=
  of_settles (Settles.refl x)

theorem endless (y : Walk α) : Mirrors (throw .endless) y :=
  of_settles (Settles.endless y)

theorem throw {e e' : WalkError} (h : e' ≠ .endless) :
    Mirrors (throw e : Walk α) (throw e') :=
  fun p => Or.inr (Or.inr ⟨e, e', p, rfl, rfl, h⟩)

theorem trans {x y z : Walk α} (h : Mirrors x y) (h' : Mirrors y z) : Mirrors x z := by
  intro p
  obtain hx | hy | ⟨e, e', q, hx, hy, he⟩ := h p
  · exact Or.inl hx
  · rw [← hy]
    exact h' p
  · obtain ⟨r, hr⟩ | hz | ⟨a, a', r, hya, hz, ha⟩ := h' p
    · rw [hy] at hr
      cases hr
      exact absurd rfl he
    · exact Or.inr (Or.inr ⟨e, e', q, hx, hz.trans hy, he⟩)
    · rw [hy] at hya
      cases hya
      exact Or.inr (Or.inr ⟨e, a', q, hx, hz, ha⟩)

theorem bind {x y : Walk α} {f k : α → Walk β} (h : Mirrors x y) (hf : ∀ a, Mirrors (f a) (k a)) :
    Mirrors (x >>= f) (y >>= k) := by
  intro p
  show (∃ q, EStateM.bind x f p = .error .endless q) ∨
    EStateM.bind y k p = EStateM.bind x f p ∨
    ∃ e e' q, EStateM.bind x f p = .error e q ∧ EStateM.bind y k p = .error e' q ∧ e' ≠ .endless
  simp only [EStateM.bind]
  obtain ⟨q, hq⟩ | hp | ⟨e, e', q, hx, hy, he⟩ := h p
  · exact Or.inl ⟨q, by rw [hq]⟩
  · rw [hp]
    cases x p with
    | ok a r => exact hf a r
    | error e r => exact Or.inr (Or.inl rfl)
  · rw [hx, hy]
    exact Or.inr (Or.inr ⟨e, e', q, rfl, rfl, he⟩)

def simulation (g g' : TypeGraph) : Simulation g g' where
  rel := Mirrors
  owners := fun _ _ => True
  refl := refl
  endless := endless
  bind := bind
  inlineNotStruct := fun _ _ _ => throw nofun
  unsupportedMapKey := fun _ _ => throw nofun

end Mirrors

def Outcome.Mirrors (o o' : Outcome) : Prop :=
  o.result = .error (.walk .endless) ∨ o' = o ∨
    ∃ log e e', o = ⟨log, .error e⟩ ∧ o' = ⟨log, .error e'⟩ ∧ e' ≠ .walk .endless

namespace TypeGraph

variable (g : TypeGraph) (s : Settings)

/-- The generation comes to `o` if only it is given enough room. -/
def Yields (root : TypeRef) (o : Outcome) : Prop :=
  o.result ≠ .error (.walk .endless) ∧ ∃ n, g.generateWithin s n root = o

def flatWithin (n : Nat) (fs : List Field) : Option (List Field) :=
  (fs.mapM (g.partWithin s n)).map List.flatten

end TypeGraph

/-- An inline field that embeds a struct. Its owner has a name or a known package, so that the Java
class of the owner does not depend on whether it has fields. -/
structure InlineField (g : TypeGraph) (s : Settings) where
  owner : TypeRef
  before : List Field
  field : Field
  after : List Field
  resolved : TypeRef
  fields : List Field
  owner_kind : (g.info owner).kind = .struct (before ++ field :: after)
  field_inline : field.isInline = true
  resolves : g.Resolves field.type resolved
  embedded_kind : (g.info (s.substitute resolved)).kind = .struct fields
  named : (g.info owner).name ≠ "" ∨ (s.package? (g.info owner).package).isSome = true

def InlineField.embedded {g : TypeGraph} {s : Settings} (i : InlineField g s) : TypeRef :=
  s.substitute i.resolved

/-- The graph where the fields of the embedded struct are written out in place of the inline
field. -/
def InlineField.writtenOut {g : TypeGraph} {s : Settings} (i : InlineField g s) : TypeGraph :=
  g.withFields i.owner (i.before ++ i.fields ++ i.after)

namespace Proofs.Inlining

open Bounds Reach Reading Stability

section

variable {g g' : TypeGraph} {s : Settings}

abbrev WalkMirrors (g g' : TypeGraph) (s : Settings) (n m : Nat) : Prop :=
  (Mirrors.simulation g g').Walks s n m

theorem WalkMirrors.mono {n m k : Nat} (h : WalkMirrors g g' s n m) (hle : m ≤ k) :
    WalkMirrors g g' s n k :=
  have hs : WalkSettles g' s m k := walk_settles hle
  { fields := fun t x hx => fieldsWithin_keeps g' s hle t x (h.fields t x hx)
    collect := fun t o => (h.collect t o).trans (.of_settles (hs.collect t o))
    collectField := fun ho o f =>
      (h.collectField ho o f).trans (.of_settles (hs.collectField _ o f))
    describe := fun ho r omitEmpty =>
      (h.describe ho r omitEmpty).trans (.of_settles (hs.describe _ r omitEmpty))
    visit := fun t => (h.visit t).trans (.of_settles (hs.visit t)) }

theorem generateWithin_mirrors (h : g.Resembles g') (hj : TypeGraph.Resembles.SameClasses s g g')
    {n m : Nat} (hle : n ≤ m) (w : WalkMirrors g g' s n m) (root : TypeRef) :
    (g.generateWithin s n root).Mirrors (g'.generateWithin s m root) := by
  have hdisplay (t : TypeRef) : (g'.info t).displayName = (g.info t).displayName :=
    h.displayName_eq t
  have hname (t : TypeRef) : (g'.info t).name = (g.info t).name := by rw [h.info t]
  simp only [TypeGraph.generateWithin, h.isStruct_eq, h.label_eq, hdisplay, hname, h.document_eq,
    Walk.ofRoot]
  split
  · exact Or.inr (Or.inl rfl)
  · obtain ⟨q, hq⟩ | hw | ⟨e, e', q, hx, hy, he⟩ := w.collect (s.substitute root) .open {}
    · rw [hq]
      exact Or.inl rfl
    · rw [hw]
      cases Walk.collect g s n (s.substitute root) .open {} with
      | error e p => exact Or.inr (Or.inl rfl)
      | ok o p =>
        cases hes : p.visited.mapM (g.entryWithin s n) with
        | none =>
          refine Or.inl ?_
          simp only [hes]
        | some es =>
          have hentries : p.visited.mapM (g'.entryWithin s m) = some es := by
            rw [funext (h.entryWithin_eq hj m)]
            exact Keeps.mapM p.visited (entryWithin_keeps hle) es hes
          refine Or.inr (Or.inl ?_)
          simp only [hes, hentries]
    · rw [hx, hy]
      exact Or.inr (Or.inr ⟨q.log, .walk e, .walk e', rfl, rfl, by simpa using he⟩)

end

section

variable {g g' : TypeGraph} {s : Settings}

theorem exists_resolveWithin {r t : TypeRef} (h : g.Resolves r t) :
    ∃ n, g.resolveWithin n r = some t := by
  induction h with
  | @done r hd =>
    refine ⟨1, ?_⟩
    unfold TypeGraph.resolveWithin
    cases hk : (g.info r).kind with
    | optional e => simp [hk, Kind.isOptional] at hd
    | primitive _ | any | seq _ | map _ _ | struct _ | enumeration _ => rfl
  | optional hk _ ih =>
    obtain ⟨n, hn⟩ := ih
    exact ⟨n + 1, by simp only [TypeGraph.resolveWithin, hk, hn]⟩

theorem fieldsWithin_flat (n : Nat) (t : TypeRef) :
    g.fieldsWithin s (n + 1) t = g.flatWithin s n (g.info t).kind.fields :=
  fieldsWithin_succ g s n t

theorem flatWithin_append (n : Nat) (xs ys : List Field) :
    g.flatWithin s n (xs ++ ys) =
      (g.flatWithin s n xs).bind fun a => (g.flatWithin s n ys).map fun b => a ++ b := by
  simp only [TypeGraph.flatWithin, List.mapM_append]
  cases xs.mapM (g.partWithin s n) with
  | none => rfl
  | some as =>
    cases ys.mapM (g.partWithin s n) with
    | none => rfl
    | some bs => simp

theorem flatWithin_singleton (n : Nat) (f : Field) :
    g.flatWithin s n [f] = g.partWithin s n f := by
  simp only [TypeGraph.flatWithin, List.mapM_cons, List.mapM_nil]
  cases g.partWithin s n f with
  | none => rfl
  | some fs => simp

theorem flatWithin_keeps (h : g.Resembles g') {n m : Nat} (hle : n ≤ m)
    (hfields : ∀ t, Keeps (g.fieldsWithin s n t) (g'.fieldsWithin s m t)) (fs : List Field) :
    Keeps (g.flatWithin s n fs) (g'.flatWithin s m fs) := by
  refine (Keeps.mapM fs fun f => ?_).map _
  unfold TypeGraph.partWithin
  split
  · rw [h.embeddedWithin_eq]
    exact (embeddedWithin_keeps g s hle f.type).bind hfields
  · exact Keeps.refl _

theorem WalkMirrors.step (h : g.Resembles g') (hj : TypeGraph.Resembles.SameClasses s g g')
    {n m : Nat} (hle : n ≤ m) (ih : WalkMirrors g g' s n m) {owner : TypeRef}
    {before xs ys after : List Field}
    (hxs : (g.info owner).kind.fields = before ++ xs ++ after)
    (hys : (g'.info owner).kind.fields = before ++ ys ++ after)
    (hother : ∀ t, t ≠ owner → g'.info t = g.info t)
    (hflat : Keeps (g.flatWithin s n xs) (g'.flatWithin s m ys))
    (hwalk : ∀ o, Mirrors (xs.foldlM (Walk.collectField g s n owner) o)
      (ys.foldlM (Walk.collectField g' s m owner) o)) :
    WalkMirrors g g' s (n + 1) (m + 1) := by
  have hkeeps := flatWithin_keeps h hle ih.fields
  refine ih.succ h hj hle (fun t => ?_) fun t o => ?_
  · rw [fieldsWithin_flat, fieldsWithin_flat]
    by_cases ht : t = owner
    · rw [ht, hxs, hys]
      simp only [flatWithin_append]
      exact ((hkeeps before).bind fun a => hflat.map _).bind fun a => (hkeeps after).map _
    · rw [hother t ht]
      exact hkeeps _
  · rw [Walk.collect, Walk.collect]
    by_cases ht : t = owner
    · rw [ht, hxs, hys]
      exact (Mirrors.simulation g g').foldlM_around (ih.collectField trivial) before after hwalk o
    · rw [hother t ht]
      exact (Mirrors.simulation g g').foldlM (ih.collectField trivial) _ o

end

end Proofs.Inlining

namespace InlineField

open Proofs Bounds Reach Reading Stability Inlining

variable {g : TypeGraph} {s : Settings} (i : InlineField g s)

theorem resembles : g.Resembles i.writtenOut :=
  TypeGraph.withFields_resembles _ ⟨_, i.owner_kind⟩

theorem sameClasses : TypeGraph.Resembles.SameClasses s g i.writtenOut := by
  intro t _
  by_cases ht : t = i.owner
  · rw [ht]
    exact i.resembles.structJavaType_eq i.named
  · rw [writtenOut, TypeGraph.withFields_of_ne _ ht]

theorem owner_fields : (g.info i.owner).kind.fields = i.before ++ [i.field] ++ i.after := by
  rw [i.owner_kind, Kind.fields, List.append_cons]

theorem writtenOut_fields :
    (i.writtenOut.info i.owner).kind.fields = i.before ++ i.fields ++ i.after := by
  rw [writtenOut, TypeGraph.withFields_self]
  rfl

theorem writtenOut_info {t : TypeRef} (ht : t ≠ i.owner) : i.writtenOut.info t = g.info t :=
  TypeGraph.withFields_of_ne _ ht

theorem embedded_fields : (g.info i.embedded).kind.fields = i.fields := by
  rw [embedded, i.embedded_kind]
  rfl

theorem embedded_isStruct : (g.info i.embedded).kind.isStruct = true := by
  rw [embedded, i.embedded_kind]
  rfl

theorem embeddedWithin_eq_embedded {n : Nat} {e : TypeRef}
    (h : g.embeddedWithin s n i.field.type = some e) : e = i.embedded := by
  obtain ⟨r, hr, rfl⟩ := Option.map_eq_some_iff.mp h
  rw [← (resolves_iff g hr).mp i.resolves]
  rfl

theorem partWithin_keeps (n : Nat) :
    Keeps (g.partWithin s n i.field) (g.flatWithin s n i.fields) := by
  rw [TypeGraph.partWithin, if_pos i.field_inline]
  intro fs hfs
  obtain ⟨e, he, hfs⟩ := Option.bind_eq_some_iff.mp hfs
  rw [i.embeddedWithin_eq_embedded he] at hfs
  cases n with
  | zero => cases hfs
  | succ n =>
    rw [fieldsWithin_flat, embedded_fields] at hfs
    have hkeeps := flatWithin_keeps (.refl g) (Nat.le_succ n)
      (fieldsWithin_keeps g s (Nat.le_succ n)) i.fields
    exact hkeeps fs hfs

theorem embeddedWithin_of_resolves {n : Nat}
    (h : g.resolveWithin n i.field.type = some i.resolved) :
    g.embeddedWithin s n i.field.type = some i.embedded := by
  rw [TypeGraph.embeddedWithin, h]
  rfl

theorem partWithin_succ {n : Nat} (h : g.resolveWithin (n + 1) i.field.type = some i.resolved) :
    g.partWithin s (n + 1) i.field = g.flatWithin s n i.fields := by
  rw [TypeGraph.partWithin, if_pos i.field_inline, i.embeddedWithin_of_resolves h,
    Option.bind_some, fieldsWithin_flat, embedded_fields]

theorem collectField_eq {n : Nat} {owner : TypeRef} {o : ObjectDescriptor}
    (h : g.embeddedWithin s n i.field.type = some i.embedded) :
    Walk.collectField g s (n + 1) owner o i.field = Walk.collect g s n i.embedded o := by
  rw [Walk.collectField, if_pos i.field_inline, h]
  simp only [Walk.ofOption, pure_bind, i.embedded_isStruct, if_true]

theorem collect_embedded (n : Nat) (o : ObjectDescriptor) :
    Walk.collect g s (n + 1) i.embedded o =
      i.fields.foldlM (Walk.collectField g s n i.embedded) o := by
  rw [Walk.collect, embedded_fields]

theorem collectField_settles (n : Nat) (owner : TypeRef) (o : ObjectDescriptor) :
    Settles (Walk.collectField g s n owner o i.field)
      (i.fields.foldlM (Walk.collectField g s n i.embedded) o) := by
  cases n with
  | zero => exact Settles.endless _
  | succ n =>
    cases he : g.embeddedWithin s n i.field.type with
    | none =>
      rw [Walk.collectField, if_pos i.field_inline, he]
      exact Settles.endless _
    | some e =>
      rw [i.embeddedWithin_eq_embedded he] at he
      rw [i.collectField_eq he, ← i.collect_embedded]
      exact (walk_settles (by omega)).collect i.embedded o

theorem collectField_succ {n : Nat} {owner : TypeRef} {o : ObjectDescriptor}
    (h : g.resolveWithin (n + 1) i.field.type = some i.resolved) :
    Walk.collectField g s (n + 2) owner o i.field =
      i.fields.foldlM (Walk.collectField g s n i.embedded) o := by
  rw [i.collectField_eq (i.embeddedWithin_of_resolves h), i.collect_embedded]

theorem mirrors_writtenOut (n : Nat) : WalkMirrors g i.writtenOut s n n := by
  -- By induction on the bound, which is the same for both walks.
  induction n with
  | zero => exact .zero _ 0
  | succ n ih =>
    refine ih.step i.resembles i.sameClasses (Nat.le_refl n) i.owner_fields
      i.writtenOut_fields (fun t => i.writtenOut_info) ?_ (fun o => ?_)
    · rw [flatWithin_singleton]
      have hkeeps := flatWithin_keeps i.resembles (Nat.le_refl n) ih.fields i.fields
      exact fun fs hfs => hkeeps fs (i.partWithin_keeps n fs hfs)
    · simp only [List.foldlM_cons, List.foldlM_nil, bind_pure]
      refine (Mirrors.of_settles (i.collectField_settles n i.owner o)).trans ?_
      exact (Mirrors.simulation _ _).foldlM (ih.collectField trivial) i.fields o

theorem writtenOut_mirrors (n : Nat) : ∃ m, n ≤ m ∧ WalkMirrors i.writtenOut g s n m := by
  -- The inline field takes the walk two levels deeper, once its optional layers are off.
  obtain ⟨k, hk⟩ := exists_resolveWithin i.resolves
  induction n with
  | zero => exact ⟨0, Nat.le_refl 0, .zero _ 0⟩
  | succ n ih =>
    obtain ⟨m, hle, hm⟩ := ih
    let b := max m k
    have hb : g.resolveWithin (b + 1) i.field.type = some i.resolved :=
      resolveWithin_keeps g (show k ≤ b + 1 by omega) _ _ hk
    refine ⟨b + 3, by omega, ?_⟩
    refine (hm.mono (show m ≤ b + 2 by omega)).step i.resembles.symm ?_ (by omega)
      i.writtenOut_fields i.owner_fields (fun t ht => (i.writtenOut_info ht).symm) ?_
      (fun o => ?_)
    · exact fun t ht => (i.sameClasses t ht).symm
    · rw [flatWithin_singleton, i.partWithin_succ (resolveWithin_keeps g (by omega) _ _ hb)]
      exact flatWithin_keeps i.resembles.symm (by omega)
        (hm.mono (show m ≤ b + 1 by omega)).fields i.fields
    · simp only [List.foldlM_cons, List.foldlM_nil, bind_pure, i.collectField_succ hb]
      exact (Mirrors.simulation _ _).foldlM
        ((hm.mono (show m ≤ b by omega)).collectField trivial) i.fields o

theorem embeds : g.Embeds s i.owner i.embedded :=
  ⟨i.field, by simp [i.owner_fields], i.field_inline, i.embedded_isStruct, i.resolved, i.resolves,
    rfl⟩

theorem mem_writtenOut {f : Field} (hf : f ∈ (i.writtenOut.info i.owner).kind.fields) :
    f ∈ (g.info i.owner).kind.fields ∨ f ∈ (g.info i.embedded).kind.fields := by
  rw [i.writtenOut_fields] at hf
  rw [i.owner_fields, i.embedded_fields]
  simp only [List.mem_append] at hf ⊢
  tauto

theorem meets {root t : TypeRef} (h : i.writtenOut.Meets s root t) : g.Meets s root t := by
  induction h with
  | root => exact .root
  | substitute _ ih => exact ih.substitute
  | @held t r _ hr ih =>
    by_cases ht : t = i.owner
    · rw [ht] at ih hr
      have hrefs : (i.writtenOut.info i.owner).kind.refs =
          (i.writtenOut.info i.owner).kind.fields.map (·.type) := by
        rw [writtenOut, TypeGraph.withFields_self]
        rfl
      rw [hrefs] at hr
      obtain ⟨f, hf, rfl⟩ := List.mem_map.mp hr
      obtain hf | hf := i.mem_writtenOut hf
      · exact Chains.meets_field ih hf
      · exact Chains.meets_field (Chains.Embeds.meets i.embeds ih) hf
    · rw [i.writtenOut_info ht] at hr
      exact ih.held hr

theorem embeds_of_writtenOut {t u : TypeRef} (h : i.writtenOut.Embeds s t u) :
    g.Embeds s t u ∨ t = i.owner ∧ g.Embeds s i.embedded u := by
  obtain ⟨f, hf, hi, hs, r, hr, rfl⟩ := h
  rw [i.resembles.isStruct_eq] at hs
  have hr := i.resembles.symm.resolves hr
  by_cases ht : t = i.owner
  · rw [ht] at hf
    rw [ht]
    obtain hf | hf := i.mem_writtenOut hf
    · exact Or.inl ⟨f, hf, hi, hs, r, hr, rfl⟩
    · exact Or.inr ⟨rfl, f, hf, hi, hs, r, hr, rfl⟩
  · rw [i.writtenOut_info ht] at hf
    exact Or.inl ⟨f, hf, hi, hs, r, hr, rfl⟩

theorem grounded {root : TypeRef} (h : g.Grounded s root) : i.writtenOut.Grounded s root := by
  obtain ⟨ranking⟩ := Chains.exists_ranking h
  refine ⟨fun t ht => h.finite t (i.meets ht), ?_, ?_, ?_⟩
  · refine Chains.not_endless_of_falls ranking.wraps Chains.Wraps.meets fun t u ht hu => ?_
    exact (ranking.wraps_ranks t (i.meets ht)).2 u (i.resembles.symm.kind_eq hu rfl)
  · refine Chains.not_endless_of_falls ranking.contains Chains.Contains.meets fun t u ht hu => ?_
    exact (ranking.contains_ranks t (i.meets ht)).2 u (i.resembles.symm.contains hu)
  · refine Chains.not_endless_of_falls ranking.embeds Chains.Embeds.meets fun t u ht hu => ?_
    have hmeets := i.meets ht
    obtain hown | ⟨rfl, hinner⟩ := i.embeds_of_writtenOut hu
    · exact (ranking.embeds_ranks t hmeets).2 u hown
    · have hbelow := Chains.Embeds.meets i.embeds hmeets
      exact ((ranking.embeds_ranks _ hbelow).2 u hinner).trans
        ((ranking.embeds_ranks _ hmeets).2 _ i.embeds)

end InlineField

namespace Proofs.Inlining

open Reach Termination

variable {g g' : TypeGraph} {s : Settings} {root : TypeRef}

theorem yields_unique {o o' : Outcome} (h : g.Yields s root o) (h' : g.Yields s root o') :
    o = o' := by
  obtain ⟨hend, n, rfl⟩ := h
  obtain ⟨hend', m, rfl⟩ := h'
  obtain hle | hle := Nat.le_total n m
  · exact (Stability.generateWithin_settles hle hend).symm
  · exact Stability.generateWithin_settles hle hend'

theorem yields_iff (h : g.Grounded s root) (o : Outcome) :
    g.Yields s root o ↔ g.generate s root = o := by
  have hyields : g.Yields s root (g.generate s root) :=
    ⟨generateWithin_ends h (Nat.le_refl _), g.depth, rfl⟩
  exact ⟨yields_unique hyields, fun ho => ho ▸ hyields⟩

theorem yields_ok (h : ∀ n, ∃ m, (g.generateWithin s n root).Mirrors (g'.generateWithin s m root))
    {log : List Event} {d : Document} (hd : g.Yields s root ⟨log, .ok d⟩) :
    g'.Yields s root ⟨log, .ok d⟩ := by
  obtain ⟨_, n, hn⟩ := hd
  obtain ⟨m, hm⟩ := h n
  rw [hn] at hm
  obtain hend | ho | ⟨_, e, _, he, _⟩ := hm
  · cases hend
  · exact ⟨nofun, m, ho⟩
  · cases he

theorem yields_error
    (h : ∀ n, ∃ m, (g.generateWithin s n root).Mirrors (g'.generateWithin s m root))
    {log : List Event} {e : GenerateError} (he : g.Yields s root ⟨log, .error e⟩) :
    ∃ e', g'.Yields s root ⟨log, .error e'⟩ := by
  obtain ⟨hend, n, hn⟩ := he
  obtain ⟨m, hm⟩ := h n
  rw [hn] at hm
  obtain h' | ho | ⟨_, _, e', heq, ho, hne⟩ := hm
  · exact absurd h' hend
  · exact ⟨e, hend, m, ho⟩
  · cases heq
    exact ⟨e', by simpa using hne, m, ho⟩

/-- An inline field and the fields of the struct that it embeds, written out in its place, lead to
the same schema with the same log, or both to an error. Where no chain of types goes on for ever,
the depth of the graph is room enough, before and after. -/
theorem generate_writtenOut (g : TypeGraph) (s : Settings) (i : InlineField g s) (root : TypeRef) :
    (∀ log d, g.Yields s root ⟨log, .ok d⟩ ↔ i.writtenOut.Yields s root ⟨log, .ok d⟩) ∧
    (∀ log, (∃ e, g.Yields s root ⟨log, .error e⟩) ↔
      ∃ e, i.writtenOut.Yields s root ⟨log, .error e⟩) ∧
    (g.Grounded s root → ∀ o, (g.Yields s root o ↔ g.generate s root = o) ∧
      (i.writtenOut.Yields s root o ↔ i.writtenOut.generate s root = o)) := by
  have hout (n : Nat) : ∃ m,
      (g.generateWithin s n root).Mirrors (i.writtenOut.generateWithin s m root) :=
    ⟨n, generateWithin_mirrors i.resembles i.sameClasses (Nat.le_refl n) (i.mirrors_writtenOut n)
      root⟩
  have hback (n : Nat) : ∃ m,
      (i.writtenOut.generateWithin s n root).Mirrors (g.generateWithin s m root) := by
    obtain ⟨m, hle, hm⟩ := i.writtenOut_mirrors n
    exact ⟨m, generateWithin_mirrors i.resembles.symm (fun t ht => (i.sameClasses t ht).symm) hle hm
      root⟩
  refine ⟨fun log d => ⟨yields_ok hout, yields_ok hback⟩, fun log => ⟨?_, ?_⟩, fun h o => ⟨?_, ?_⟩⟩
  · rintro ⟨e, he⟩
    exact yields_error hout he
  · rintro ⟨e, he⟩
    exact yields_error hback he
  · exact yields_iff h o
  · exact yields_iff (i.grounded h) o

def shopBase : InlineField wholeShop shopSettings where
  owner := .declared "Order"
  before := []
  field := { name := "base", type := .declared "Base", isInline := true }
  after := [
    { name := "items", type := .list (.declared "Item"), isRequired := true },
    { name := "next", type := .option (.declared "Order") }]
  resolved := .declared "Base"
  fields := [{ name := "first", type := .declared "Legacy", isRequired := true }]
  owner_kind := rfl
  field_inline := rfl
  resolves := .done rfl
  embedded_kind := rfl
  named := Or.inl (by decide)

theorem shop_generate_writtenOut :
    wholeShop.Grounded shopSettings (.declared "Order") ∧
    ∃ log d, wholeShop.generate shopSettings (.declared "Order") = ⟨log, .ok d⟩ ∧
      shopBase.writtenOut.generate shopSettings (.declared "Order") = ⟨log, .ok d⟩ := by
  obtain ⟨hok, _, hgenerate⟩ :=
    generate_writtenOut wholeShop shopSettings shopBase (.declared "Order")
  have h := hgenerate wholeShop_grounded
  obtain ⟨log, d, hd⟩ : ∃ log d,
      wholeShop.generate shopSettings (.declared "Order") = ⟨log, .ok d⟩ :=
    ⟨_, _, rfl⟩
  exact ⟨wholeShop_grounded, log, d, hd,
    (h _).2.mp ((hok log d).mp ((h _).1.mpr hd))⟩

end Proofs.Inlining

end ModelSchema
