import Mathlib.Data.List.Nodup
import ModelSchema.Proofs.Reach
import ModelSchema.Proofs.Success

namespace ModelSchema

def TypeGraph.registration (g : TypeGraph) (s : Settings) (t : TypeRef) : Event :=
  .registering (s.qualifiedName (g.info t))

namespace Progress

theorem begin_types (p : Progress) (t : TypeRef) (e : Event) :
    (p.begin t e).types = p.types ++ [t] := by
  rw [types, begin, List.map_append]
  rfl

theorem mem_begin_types (p : Progress) (t : TypeRef) (e : Event) : t ∈ (p.begin t e).types := by
  rw [begin_types]
  exact List.mem_append_right _ List.mem_cons_self

theorem complete_types (p : Progress) (v : Visited) : (p.complete v).types = p.types := by
  rw [types, complete, List.map_map]
  apply List.map_congr_left
  intro w _
  by_cases hw : w.type = v.type <;> simp [hw]

end Progress

/-- The walk went from `p` to `q` to enter the types in `P`, and came to the structs `vs`. -/
structure Grows (g : TypeGraph) (s : Settings) (P : TypeRef → Prop) (p : Progress)
    (vs : List Visited) (q : Progress) : Prop where
  visited : q.visited = p.visited ++ vs
  log : q.log = p.log ++ vs.map fun v => g.registration s v.type
  nodup : (vs.map (·.type)).Nodup
  fresh : ∀ v ∈ vs, v.type ∉ p.types
  finished : ∀ v ∈ vs, ∃ n, g.finishedWithin s n v.type = some v
  entered : ∀ u, P u → u ∈ q.types
  closed : ∀ v ∈ vs, ∀ u, g.Refers s v.type u → u ∈ q.types
  reached : ∀ v ∈ vs, ∃ u, P u ∧ Relation.ReflTransGen (g.Refers s) u v.type

namespace Grows

variable {g : TypeGraph} {s : Settings} {P Q : TypeRef → Prop} {p q r : Progress}
  {vs ws : List Visited}

theorem types (h : Grows g s P p vs q) : q.types = p.types ++ vs.map (·.type) := by
  rw [Progress.types, h.visited, List.map_append]
  rfl

theorem subset (h : Grows g s P p vs q) {t : TypeRef} (ht : t ∈ p.types) : t ∈ q.types := by
  rw [h.types]
  exact List.mem_append_left _ ht

theorem refl (h : ∀ u, P u → u ∈ p.types) : Grows g s P p [] p where
  visited := (List.append_nil _).symm
  log := (List.append_nil _).symm
  nodup := List.nodup_nil
  fresh := by simp
  finished := by simp
  entered := h
  closed := by simp
  reached := by simp

theorem congr (h : Grows g s P p vs q) (hPQ : ∀ u, P u ↔ Q u) : Grows g s Q p vs q :=
  have he : P = Q := funext fun u => propext (hPQ u)
  he ▸ h

theorem trans (h : Grows g s P p vs q) (h' : Grows g s Q q ws r) :
    Grows g s (fun u => P u ∨ Q u) p (vs ++ ws) r where
  visited := by rw [h'.visited, h.visited, List.append_assoc]
  log := by rw [h'.log, h.log, List.append_assoc, List.map_append]
  nodup := by
    rw [List.map_append, List.nodup_append']
    refine ⟨h.nodup, h'.nodup, ?_⟩
    intro t ht ht'
    obtain ⟨w, hw, rfl⟩ := List.mem_map.mp ht'
    apply h'.fresh w hw
    rw [h.types]
    exact List.mem_append_right _ ht
  fresh := by
    intro v hv
    obtain hv | hv := List.mem_append.mp hv
    · exact h.fresh v hv
    · exact fun ht => h'.fresh v hv (h.subset ht)
  finished := by
    intro v hv
    obtain hv | hv := List.mem_append.mp hv
    · exact h.finished v hv
    · exact h'.finished v hv
  entered := by
    rintro u (hu | hu)
    · exact h'.subset (h.entered u hu)
    · exact h'.entered u hu
  closed := by
    intro v hv u hu
    obtain hv | hv := List.mem_append.mp hv
    · exact h'.subset (h.closed v hv u hu)
    · exact h'.closed v hv u hu
  reached := by
    intro v hv
    obtain hv | hv := List.mem_append.mp hv
    · obtain ⟨u, hu, hr⟩ := h.reached v hv
      exact ⟨u, Or.inl hu, hr⟩
    · obtain ⟨u, hu, hr⟩ := h'.reached v hv
      exact ⟨u, Or.inr hu, hr⟩

theorem complete_visited {t : TypeRef} {e : Event} {v : Visited} (ht : t ∉ p.types)
    (h : Grows g s P (p.begin t e) vs q) (hv : v.type = t) :
    (q.complete v).visited = p.visited ++ v :: vs := by
  have hold : ∀ w ∈ p.visited, w.type ≠ v.type := by
    intro w hw he
    exact ht (hv ▸ he ▸ List.mem_map_of_mem hw)
  have hnew : ∀ w ∈ vs, w.type ≠ v.type := by
    intro w hw he
    apply h.fresh w hw
    rw [he, hv]
    exact p.mem_begin_types t e
  have hmap : ∀ ws : List Visited, (∀ w ∈ ws, w.type ≠ v.type) →
      ws.map (fun w => if w.type = v.type then v else w) = ws := by
    intro ws hws
    exact (List.map_congr_left fun w hw => if_neg (hws w hw)).trans (List.map_id _)
  rw [Progress.complete, h.visited, Progress.begin, List.map_append, List.map_append, hmap _ hold,
    hmap _ hnew, List.append_assoc]
  simp [hv]

theorem visit {t : TypeRef} {v : Visited} {n : Nat} (ht : t ∉ p.types)
    (h : Grows g s (g.Refers s t) (p.begin t (g.registration s t)) vs q)
    (hv : g.finishedWithin s n t = some v) (hvt : v.type = t) :
    Grows g s (· = t) p (v :: vs) (q.complete v) where
  visited := complete_visited ht h hvt
  log := by
    show q.log = _
    rw [h.log, Progress.begin, List.map_cons, hvt, List.append_assoc]
    rfl
  nodup := by
    rw [List.map_cons, List.nodup_cons]
    refine ⟨?_, h.nodup⟩
    intro hm
    obtain ⟨w, hw, he⟩ := List.mem_map.mp hm
    apply h.fresh w hw
    rw [he, hvt]
    exact p.mem_begin_types t _
  fresh := by
    intro w hw hwt
    obtain rfl | hw := List.mem_cons.mp hw
    · exact ht (hvt ▸ hwt)
    · apply h.fresh w hw
      rw [p.begin_types]
      exact List.mem_append_left _ hwt
  finished := by
    intro w hw
    obtain rfl | hw := List.mem_cons.mp hw
    · exact ⟨n, hvt ▸ hv⟩
    · exact h.finished w hw
  entered := by
    rintro u rfl
    rw [q.complete_types]
    exact h.subset (p.mem_begin_types u _)
  closed := by
    intro w hw u hu
    rw [q.complete_types]
    obtain rfl | hw := List.mem_cons.mp hw
    · exact h.entered u (hvt ▸ hu)
    · exact h.closed w hw u hu
  reached := by
    intro w hw
    refine ⟨t, rfl, ?_⟩
    obtain rfl | hw := List.mem_cons.mp hw
    · rw [hvt]
    · obtain ⟨u, hu, hr⟩ := h.reached w hw
      exact Relation.ReflTransGen.head hu hr

end Grows

namespace Proofs.Growth

open Bounds Reading Reach Success

variable (g : TypeGraph) (s : Settings)

def PointsTo (fs : List Field) (u : TypeRef) : Prop :=
  ∃ f ∈ fs, g.Leads s f.type u

def Describes (n : Nat) : Prop :=
  ∀ {owner r omitEmpty p x q}, Walk.describe g s n owner r omitEmpty p = .ok x q →
    ∃ e vs, g.exprWithin s n r = some e ∧ x = e.property g s omitEmpty ∧
      Grows g s (fun u => e.target? = some u) p vs q

def CollectsField (n : Nat) : Prop :=
  ∀ {owner o f p o' q}, Walk.collectField g s n owner o f p = .ok o' q →
    ∃ fs vs, g.partWithin s n f = some fs ∧ fs.foldlM (g.addReadField s n) o = some o' ∧
      Grows g s (PointsTo g s fs) p vs q

def Collects (n : Nat) : Prop :=
  ∀ {owner o p o' q}, Walk.collect g s n owner o p = .ok o' q →
    ∃ fs vs, g.fieldsWithin s n owner = some fs ∧ fs.foldlM (g.addReadField s n) o = some o' ∧
      Grows g s (PointsTo g s fs) p vs q

def Visits (n : Nat) : Prop :=
  ∀ {t p u q}, Walk.visit g s n t p = .ok u q → ∃ vs, Grows g s (· = t) p vs q

theorem describe_succ {n : Nat} (hd : Describes g s n) (hv : Visits g s n) :
    Describes g s (n + 1) := by
  intro owner r omitEmpty p x q h
  unfold Walk.describe at h
  unfold TypeGraph.exprWithin
  dsimp only at h ⊢
  cases hm : s.manualType? (s.substitute r) with
  | some t =>
    simp only [hm, pure_ok] at h ⊢
    obtain ⟨rfl, rfl⟩ := h
    exact ⟨_, [], rfl, rfl, Grows.refl fun u hu => by cases hu⟩
  | none =>
    simp only [hm] at h ⊢
    cases hk : (g.info (s.substitute r)).kind with
    | optional e =>
      simp only [hk] at h ⊢
      exact hd h
    | seq e =>
      simp only [hk] at h ⊢
      cases hb : g.isByte (s.substitute e) with
      | true =>
        simp only [hb, if_true, pure_ok] at h ⊢
        obtain ⟨rfl, rfl⟩ := h
        exact ⟨_, [], rfl, rfl, Grows.refl fun u hu => by cases hu⟩
      | false =>
        simp only [hb, Bool.false_eq_true, if_false, bind_ok, pure_ok] at h ⊢
        obtain ⟨items, q', h, rfl, rfl⟩ := h
        obtain ⟨y, vs, hy, rfl, hg⟩ := hd h
        exact ⟨.list y, vs, by rw [hy]; rfl, rfl, hg⟩
    | map k v =>
      simp only [hk, bind_ok, ofOption_ok] at h ⊢
      obtain ⟨key, _, ⟨_, rfl⟩, h⟩ := h
      by_cases hkey : (g.info key).kind.isKey
      · simp only [hkey, if_true, bind_ok, ofOption_ok, pure_ok] at h
        obtain ⟨j, _, ⟨hj, rfl⟩, value, q', h, rfl, rfl⟩ := h
        obtain ⟨y, vs, hy, rfl, hg⟩ := hd h
        refine ⟨.map y, vs, by rw [hy]; rfl, ?_, hg⟩
        rw [javaTypeWithin_eq_expr g s hj hy]
        rfl
      · simp only [hkey, Bool.false_eq_true, if_false, throw_ok] at h
    | struct fs =>
      simp only [hk, bind_ok, ofOption_ok, pure_ok] at h ⊢
      obtain ⟨_, q', h, j, _, ⟨hj, rfl⟩, rfl, rfl⟩ := h
      obtain ⟨vs, hg⟩ := hv h
      refine ⟨_, vs, rfl, ?_, hg.congr fun u => by simp [TypeExpr.target?, eq_comm]⟩
      cases n with
      | zero => cases hj
      | succ n =>
        unfold TypeGraph.javaTypeWithin at hj
        simp only [hm, hk, Option.some.injEq] at hj
        rw [← hj]
        rfl
    | primitive t | any | enumeration vs =>
      simp only [hk, pure_ok] at h ⊢
      obtain ⟨rfl, rfl⟩ := h
      exact ⟨_, [], rfl, rfl, Grows.refl fun u hu => by cases hu⟩

theorem collectField_succ {n : Nat} (hd : Describes g s n) (hc : Collects g s n) :
    CollectsField g s (n + 1) := by
  intro owner o f p o' q h
  unfold Walk.collectField at h
  unfold TypeGraph.partWithin
  cases hi : f.isInline with
  | true =>
    simp only [hi, if_true, bind_ok, ofOption_ok] at h ⊢
    obtain ⟨e, _, ⟨he, rfl⟩, h⟩ := h
    by_cases hs : (g.info e).kind.isStruct
    · simp only [hs, if_true] at h
      obtain ⟨fs, vs, hfs, ho, hg⟩ := hc h
      refine ⟨fs, vs, ?_, Keeps.foldlM fs (addReadField_keeps g s (Nat.le_succ n)) o o' ho, hg⟩
      rw [embeddedWithin_keeps g s (Nat.le_succ n) f.type e he]
      exact fieldsWithin_keeps g s (Nat.le_succ n) e fs hfs
    · simp only [hs, Bool.false_eq_true, if_false, throw_ok] at h
  | false =>
    simp only [hi, Bool.false_eq_true, if_false, bind_ok, pure_ok] at h ⊢
    obtain ⟨x, q', h, rfl, rfl⟩ := h
    obtain ⟨e, vs, he, rfl, hg⟩ := hd h
    refine ⟨[f], vs, rfl, ?_, hg.congr fun u => ?_⟩
    -- The parts were read under a smaller bound.
    · rw [List.foldlM_cons, TypeGraph.addReadField,
        exprWithin_keeps g s (Nat.le_succ n) f.type e he]
      rfl
    · rw [← leads_iff g s he]
      simp [PointsTo]

theorem collectFields {n : Nat} (hf : CollectsField g s n) (fields : List Field)
    {owner : TypeRef} {o o' : ObjectDescriptor} {p q : Progress}
    (h : fields.foldlM (Walk.collectField g s n owner) o p = .ok o' q) :
    ∃ parts vs, fields.mapM (g.partWithin s n) = some parts ∧
      parts.flatten.foldlM (g.addReadField s n) o = some o' ∧
      Grows g s (PointsTo g s parts.flatten) p vs q := by
  induction fields generalizing o p with
  | nil =>
    rw [List.foldlM_nil, pure_ok] at h
    obtain ⟨rfl, rfl⟩ := h
    exact ⟨[], [], rfl, rfl, Grows.refl fun u ⟨f, hf, _⟩ => by cases hf⟩
  | cons f fields ih =>
    rw [List.foldlM_cons, bind_ok] at h
    obtain ⟨o₁, p₁, h₁, h⟩ := h
    obtain ⟨fs, vs, hfs, ho₁, hg₁⟩ := hf h₁
    obtain ⟨parts, ws, hparts, ho, hg⟩ := ih h
    refine ⟨fs :: parts, vs ++ ws, ?_, ?_, (hg₁.trans hg).congr fun u => ?_⟩
    · rw [List.mapM_cons, hfs, hparts]
      rfl
    · rw [List.flatten_cons, List.foldlM_append, ho₁]
      exact ho
    · simp only [PointsTo, List.flatten_cons, List.mem_append]
      constructor
      · rintro (⟨f, hf, hu⟩ | ⟨f, hf, hu⟩)
        · exact ⟨f, Or.inl hf, hu⟩
        · exact ⟨f, Or.inr hf, hu⟩
      · rintro ⟨f, hf | hf, hu⟩
        · exact Or.inl ⟨f, hf, hu⟩
        · exact Or.inr ⟨f, hf, hu⟩

theorem collect_succ {n : Nat} (hf : CollectsField g s n) : Collects g s (n + 1) := by
  intro owner o p o' q h
  unfold Walk.collect at h
  obtain ⟨parts, vs, hparts, ho, hg⟩ := collectFields g s hf _ h
  have hkeeps := Keeps.foldlM parts.flatten (addReadField_keeps g s (Nat.le_succ n)) o
  refine ⟨parts.flatten, vs, ?_, hkeeps o' ho, hg⟩
  rw [fieldsWithin_succ, hparts]
  rfl

theorem pointsTo_iff {n : Nat} {t : TypeRef} {fs : List Field}
    (h : g.fieldsWithin s n t = some fs) (u : TypeRef) : PointsTo g s fs u ↔ g.Refers s t u := by
  simp only [PointsTo, TypeGraph.Refers, hasField_iff g s h]

theorem visit_succ {n : Nat} (hc : Collects g s n) : Visits g s (n + 1) := by
  intro t p u q h
  unfold Walk.visit at h
  rw [bind_ok] at h
  obtain ⟨_, _, hget, h⟩ := h
  obtain ⟨rfl, rfl⟩ := get_ok.mp hget
  split at h
  · rename_i ht
    obtain ⟨_, rfl⟩ := pure_ok.mp h
    exact ⟨[], Grows.refl fun u hu => hu ▸ ht⟩
  · rename_i ht
    simp only [bind_ok, modify_ok, ofOption_ok] at h
    obtain ⟨_, _, rfl, o, q', h, role, _, ⟨hrole, rfl⟩, rfl⟩ := h
    obtain ⟨fs, vs, hfs, ho, hg⟩ := hc h
    refine ⟨_, Grows.visit (n := n) ht (hg.congr (pointsTo_iff g s hfs)) ?_ rfl⟩
    rw [TypeGraph.finishedWithin, TypeGraph.objectWithin, hfs, hrole]
    exact congrArg (Option.bind · _) ho

theorem walk_grows (n : Nat) :
    Describes g s n ∧ CollectsField g s n ∧ Collects g s n ∧ Visits g s n := by
  -- By induction on the bound, as the parts call each other under a smaller one.
  induction n with
  | zero =>
    refine ⟨?_, ?_, ?_, ?_⟩
    · exact fun {_ _ _ _ _ _} h => (throw_ok.mp h).elim
    · exact fun {_ _ _ _ _ _} h => (throw_ok.mp h).elim
    · exact fun {_ _ _ _ _} h => (throw_ok.mp h).elim
    · exact fun {_ _ _ _} h => (throw_ok.mp h).elim
  | succ n ih =>
    obtain ⟨hd, hf, hc, hv⟩ := ih
    exact ⟨describe_succ g s hd hv, collectField_succ g s hd hc, collect_succ g s hf,
      visit_succ g s hc⟩

theorem ofRoot_grows {n : Nat} {root : TypeRef} {o : ObjectDescriptor} {p : Progress}
    (h : Walk.ofRoot g s n root = .ok o p) :
    g.objectWithin s n root = some o ∧ Grows g s (g.Refers s root) {} p.visited p := by
  obtain ⟨fs, vs, hfs, ho, hg⟩ := (walk_grows g s n).2.2.1 h
  refine ⟨?_, ?_⟩
  · rw [TypeGraph.objectWithin, hfs]
    exact ho
  · have hv : p.visited = vs := hg.visited
    rw [hv]
    exact hg.congr (pointsTo_iff g s hfs)

/-- The structs that a walk comes to are those that its root reaches. -/
theorem mem_types_iff {root : TypeRef} {p : Progress}
    (h : Grows g s (g.Refers s root) {} p.visited p) (t : TypeRef) :
    t ∈ p.types ↔ g.Reachable s root t := by
  constructor
  · intro ht
    obtain ⟨v, hv, rfl⟩ := List.mem_map.mp ht
    obtain ⟨u, hu, hr⟩ := h.reached v hv
    exact Relation.TransGen.head' hu hr
  · intro ht
    induction ht with
    | single hu => exact h.entered _ hu
    | tail _ hu ih =>
      obtain ⟨v, hv, rfl⟩ := List.mem_map.mp ih
      exact h.closed v hv _ hu

end Proofs.Growth

end ModelSchema
