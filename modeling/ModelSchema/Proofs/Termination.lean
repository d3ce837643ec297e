import ModelSchema.Proofs.Chains
import ModelSchema.Proofs.References
import ModelSchema.Proofs.Registration
import ModelSchema.Proofs.Stability
import ModelSchema.Proofs.Substitution

namespace ModelSchema

namespace Progress

def unvisited (g : TypeGraph) (p : Progress) : Nat :=
  (g.refs.toFinset \ p.types.toFinset).card

theorem unvisited_le (g : TypeGraph) {p q : Progress} (h : ∀ t ∈ p.types, t ∈ q.types) :
    q.unvisited g ≤ p.unvisited g := by
  apply Finset.card_le_card
  intro t ht
  simp only [Finset.mem_sdiff, List.mem_toFinset] at ht ⊢
  exact ⟨ht.1, fun hp => ht.2 (h t hp)⟩

theorem unvisited_begin_lt {g : TypeGraph} {p : Progress} {t : TypeRef} (e : Event)
    (ht : t ∈ g.refs) (hp : t ∉ p.types) : (p.begin t e).unvisited g < p.unvisited g := by
  apply Finset.card_lt_card
  refine Finset.ssubset_iff_subset_ne.mpr ⟨?_, fun he => ?_⟩
  · intro u hu
    simp only [Finset.mem_sdiff, List.mem_toFinset, begin_types, List.mem_append, not_or] at hu ⊢
    exact ⟨hu.1, hu.2.1⟩
  · have hmem : t ∈ g.refs.toFinset \ p.types.toFinset := by simp [ht, hp]
    rw [← he] at hmem
    simp [begin_types] at hmem

theorem unvisited_lt_bound (g : TypeGraph) (p : Progress) : p.unvisited g < g.bound := by
  have hsub := Finset.card_le_card (Finset.sdiff_subset (s := g.refs.toFinset)
    (t := p.types.toFinset))
  have hlength := List.toFinset_card_le g.refs
  simp only [unvisited, TypeGraph.bound]
  omega

end Progress

namespace Proofs.Termination

open Bounds Reading Reach Chains Growth Failure Success

variable {g : TypeGraph} {s : Settings} {root : TypeRef}

section

variable {α β : Type}

theorem mapM_answers {f : α → Option β} {xs : List α} (h : ∀ x ∈ xs, ∃ y, f x = some y) :
    ∃ ys, xs.mapM f = some ys := by
  induction xs with
  | nil => exact ⟨[], rfl⟩
  | cons x xs ih =>
    obtain ⟨y, hy⟩ := h x List.mem_cons_self
    obtain ⟨ys, hys⟩ := ih fun z hz => h z (List.mem_cons_of_mem _ hz)
    exact ⟨y :: ys, by simp [List.mapM_cons, hy, hys]⟩

theorem foldlM_answers {f : β → α → Option β} {xs : List α}
    (h : ∀ x ∈ xs, ∀ b, ∃ c, f b x = some c) (b : β) : ∃ c, xs.foldlM f b = some c := by
  induction xs generalizing b with
  | nil => exact ⟨b, rfl⟩
  | cons x xs ih =>
    obtain ⟨c, hc⟩ := h x List.mem_cons_self b
    obtain ⟨d, hd⟩ := ih (fun z hz => h z (List.mem_cons_of_mem _ hz)) c
    exact ⟨d, by simp [List.foldlM_cons, hc, hd]⟩

end

theorem meets_hasField {t : TypeRef} {f : Field} (h : g.HasField s t f) (ht : g.Meets s root t) :
    g.Meets s root f.type := by
  induction h with
  | own hf _ => exact meets_field ht hf
  | embedded hf _ hr _ ih => exact ih (meets_resolves hr (meets_field ht hf)).substitute

theorem noteField_meets {n : Nat} {l l' : Landmarks} {f : Field}
    (h : g.noteField n l f = some l') (hf : g.Meets s root f.type)
    (hl : ∀ r, l.items = some r → g.Meets s root r) :
    ∀ r, l'.items = some r → g.Meets s root r := by
  obtain ⟨_, rfl⟩ | ⟨_, rfl⟩ | ⟨_, t, _, rfl⟩ | ⟨_, rfl⟩ | ⟨_, rfl⟩ := noteField_cases h
  · exact hl
  · exact hl
  · exact hl
  · rintro r hr
    cases hr
    exact hf
  · exact hl

section

variable (k : Ranking g s root)
include k

theorem resolveWithin_answers {n : Nat} {r : TypeRef} (hr : g.Meets s root r)
    (hn : k.wraps r < n) : ∃ t, g.resolveWithin n r = some t := by
  induction n generalizing r with
  | zero => omega
  | succ n ih =>
    simp only [TypeGraph.resolveWithin]
    cases hk : (g.info r).kind with
    | optional e =>
      have hlt := (k.wraps_ranks r hr).2 e hk
      exact ih (Wraps.meets hk hr) (by omega)
    | primitive _ | any | seq _ | map _ _ | struct _ | enumeration _ => exact ⟨r, rfl⟩

theorem resolves_below {n : Nat} {r : TypeRef} (hr : g.Meets s root r) (hn : g.bound ≤ n) :
    ∃ t, g.resolveWithin n r = some t := by
  have hlt := (k.wraps_ranks r hr).1
  exact resolveWithin_answers k hr (by omega)

theorem embeddedWithin_answers {n : Nat} {r : TypeRef} (hr : g.Meets s root r)
    (hn : g.bound ≤ n) : ∃ t, g.embeddedWithin s n r = some t := by
  obtain ⟨t, ht⟩ := resolves_below k hr hn
  exact ⟨s.substitute t, by rw [TypeGraph.embeddedWithin, ht, Option.map_some]⟩

theorem javaTypeWithin_answers {n : Nat} {t : TypeRef} (ht : g.Meets s root t)
    (hn : k.contains t < n) : ∃ j, g.javaTypeWithin s n t = some j := by
  induction n generalizing t with
  | zero => omega
  | succ n ih =>
    have hstep : ∀ e, g.Contains s t (s.substitute e) →
        ∃ j, g.javaTypeWithin s n (s.substitute e) = some j := by
      intro e he
      have hlt := (k.contains_ranks t ht).2 _ he
      exact ih (Contains.meets he ht) (by omega)
    simp only [TypeGraph.javaTypeWithin]
    cases s.manualType? t with
    | some j => exact ⟨j, rfl⟩
    | none =>
      cases hk : (g.info t).kind with
      | optional e => exact hstep e ⟨e, rfl, .inl hk⟩
      | seq e =>
        by_cases hb : g.isByte (s.substitute e)
        · simp [hb]
        · obtain ⟨j, hj⟩ := hstep e ⟨e, rfl, .inr (.inl hk)⟩
          simp [hb, hj]
      | map key v =>
        obtain ⟨j, hj⟩ := hstep v ⟨v, rfl, .inr (.inr ⟨key, hk⟩)⟩
        simp [hj]
      | primitive _ | any | struct _ | enumeration _ => simp

theorem fieldsWithin_answers {n : Nat} {t : TypeRef} (ht : g.Meets s root t)
    (hn : k.embeds t + g.bound < n) : ∃ fs, g.fieldsWithin s n t = some fs := by
  induction n generalizing t with
  | zero => omega
  | succ n ih =>
    have hpart : ∀ f ∈ (g.info t).kind.fields, ∃ fs, g.partWithin s n f = some fs := by
      intro f hf
      by_cases hi : f.isInline
      · obtain ⟨r, hr⟩ := resolves_below k (meets_field ht hf) (n := n) (by omega)
        have hmeets := meets_resolveWithin g s (meets_field ht hf) hr
        simp only [TypeGraph.partWithin, hi, if_true, TypeGraph.embeddedWithin, hr,
          Option.map_some, Option.bind_some]
        by_cases hs : (g.info (s.substitute r)).kind.isStruct
        · have he : g.Embeds s t (s.substitute r) :=
            ⟨f, hf, hi, hs, r, (resolves_iff g hr).mpr rfl, rfl⟩
          have hlt := (k.embeds_ranks t ht).2 _ he
          exact ih hmeets.substitute (by omega)
        · have hlt := (k.embeds_ranks t ht).1
          obtain ⟨n, rfl⟩ : ∃ m, n = m + 1 := ⟨n - 1, by omega⟩
          have hnil : (g.info (s.substitute r)).kind.fields = [] := by
            cases hk : (g.info (s.substitute r)).kind <;> simp_all [Kind.fields, Kind.isStruct]
          exact ⟨[], by simp [fieldsWithin_succ, hnil]⟩
      · exact ⟨[f], by simp [TypeGraph.partWithin, hi]⟩
    obtain ⟨parts, hparts⟩ := mapM_answers hpart
    exact ⟨parts.flatten, by rw [fieldsWithin_succ, hparts, Option.map_some]⟩

theorem noteField_answers {n : Nat} (l : Landmarks) {f : Field} (hf : g.Meets s root f.type)
    (hn : g.bound ≤ n) : ∃ l', g.noteField n l f = some l' := by
  obtain ⟨t, ht⟩ := resolves_below k hf hn
  simp only [TypeGraph.noteField, ht, Option.map_some]
  split
  · simp
  split
  · simp
  split
  · simp
  split <;> simp

theorem roleWithin_answers {n : Nat} {t : TypeRef} (ht : g.Meets s root t)
    (hn : 2 * g.bound ≤ n) : ∃ role, g.roleWithin s n t = some role := by
  have hembeds := (k.embeds_ranks t ht).1
  obtain ⟨fields, hfields⟩ := fieldsWithin_answers k ht (n := n) (by omega)
  have hmeets : ∀ f ∈ fields, g.Meets s root f.type :=
    fun f hf => meets_hasField ((hasField_iff g s hfields).mpr hf) ht
  obtain ⟨l, hl⟩ := foldlM_answers (f := g.noteField n)
    (fun f hf l => noteField_answers k l (hmeets f hf) (by omega)) {}
  have hitems : ∀ r, l.items = some r → g.Meets s root r :=
    foldlM_property (P := fun l => ∀ r, l.items = some r → g.Meets s root r) hl
      (fun f hf _ _ h => noteField_meets h (hmeets f hf)) (by simp)
  simp only [TypeGraph.roleWithin, hfields, hl, Option.bind_eq_bind, Option.bind_some]
  split
  · exact ⟨_, rfl⟩
  split
  · exact ⟨_, rfl⟩
  split
  · rename_i metadata r _ hr
    obtain ⟨items, hembedded⟩ := embeddedWithin_answers k (hitems r hr) (n := n) (by omega)
    obtain ⟨u, hu, rfl⟩ := Option.map_eq_some_iff.mp hembedded
    have hitemsMeets := (meets_resolveWithin g s (hitems r hr) hu).substitute
    simp only [hembedded, Option.bind_some]
    split
    · rename_i e he
      split
      · have hmeets : g.Meets s root (s.substitute e) :=
          (hitemsMeets.held (by simp [he, Kind.refs])).substitute
        have hlt := (k.contains_ranks _ hmeets).1
        obtain ⟨j, hj⟩ := javaTypeWithin_answers k hmeets (n := n) (by omega)
        exact ⟨_, by rw [hj]; rfl⟩
      · exact ⟨_, rfl⟩
    · exact ⟨_, rfl⟩
  · exact ⟨_, rfl⟩

/-- What the walk may still take: a round for each struct that is not visited yet, and what it takes
to read a struct that is. -/
def cost (g : TypeGraph) (p : Progress) : Nat :=
  p.unvisited g * (3 * g.bound + 5) + 2 * g.bound

omit k in
theorem cost_le {p q : Progress} (h : ∀ t ∈ p.types, t ∈ q.types) : cost g q ≤ cost g p := by
  have hle := Nat.mul_le_mul_right (3 * g.bound + 5) (Progress.unvisited_le g h)
  simp only [cost]
  omega

omit k in
theorem bound_le_cost (p : Progress) : 2 * g.bound ≤ cost g p :=
  Nat.le_add_left _ _

omit k in
theorem cost_begin {p : Progress} {t : TypeRef} (e : Event) (ht : t ∈ g.refs) (hp : t ∉ p.types) :
    cost g (p.begin t e) + (3 * g.bound + 5) ≤ cost g p := by
  have hlt := Progress.unvisited_begin_lt e ht hp
  have hle := Nat.mul_le_mul_right (3 * g.bound + 5) hlt
  rw [Nat.succ_mul] at hle
  simp only [cost]
  omega

/-- A part of the walk comes to an end under the bound `n` if its cost and the ranks of the types
that it starts with fit into it. -/
structure Ends (n : Nat) : Prop where
  describe : ∀ {owner r omitEmpty p q}, g.Meets s root r →
    cost g p + k.contains (s.substitute r) + 1 ≤ n →
    Walk.describe g s n owner r omitEmpty p ≠ .error .endless q
  collectField : ∀ {owner o f p q}, g.Meets s root owner → f ∈ (g.info owner).kind.fields →
    cost g p + g.bound + 2 * k.embeds owner + 1 ≤ n →
    Walk.collectField g s n owner o f p ≠ .error .endless q
  collect : ∀ {t o p q}, g.Meets s root t → cost g p + g.bound + 2 * k.embeds t + 2 ≤ n →
    Walk.collect g s n t o p ≠ .error .endless q
  visit : ∀ {t p q}, g.Meets s root t → cost g p ≤ n →
    Walk.visit g s n t p ≠ .error .endless q

variable {k}

theorem describe_ends {n : Nat} (ih : Ends k n) {owner r : TypeRef} {omitEmpty : Bool}
    {p q : Progress} (hr : g.Meets s root r)
    (hn : cost g p + k.contains (s.substitute r) + 1 ≤ n + 1) :
    Walk.describe g s (n + 1) owner r omitEmpty p ≠ .error .endless q := by
  intro h
  have ht : g.Meets s root (s.substitute r) := hr.substitute
  have hcost := bound_le_cost (g := g) p
  have hrank := (k.contains_ranks _ ht).1
  -- What a container holds has a smaller rank, and the state is the same.
  have hheld : ∀ {e : TypeRef}, g.Contains s (s.substitute r) (s.substitute e) →
      cost g p + k.contains (s.substitute e) + 1 ≤ n := by
    intro e he
    have hlt := (k.contains_ranks _ ht).2 _ he
    omega
  simp only [Walk.describe] at h
  cases hm : s.manualType? (s.substitute r) with
  | some j => simp [hm, pure_error] at h
  | none =>
    simp only [hm] at h
    cases hk : (g.info (s.substitute r)).kind with
    | optional e =>
      simp only [hk] at h
      exact ih.describe (ht.held (by simp [hk, Kind.refs])) (hheld ⟨e, rfl, .inl hk⟩) h
    | seq e =>
      simp only [hk] at h
      by_cases hb : g.isByte (s.substitute e)
      · simp [hb, pure_error] at h
      · simp only [hb, Bool.false_eq_true, if_false, bind_error, pure_error, and_false,
          exists_false, or_false] at h
        exact ih.describe (ht.held (by simp [hk, Kind.refs])) (hheld ⟨e, rfl, .inr (.inl hk)⟩) h
    | map key v =>
      have hkey : g.Meets s root key := ht.held (by simp [hk, Kind.refs])
      have hv : g.Meets s root v := ht.held (by simp [hk, Kind.refs])
      have hcontains : g.Contains s (s.substitute r) (s.substitute v) :=
        ⟨v, rfl, .inr (.inr ⟨key, hk⟩)⟩
      have hle := hheld hcontains
      obtain ⟨u, hu⟩ := resolves_below k hkey.substitute (n := n) (by omega)
      obtain ⟨j, hj⟩ := javaTypeWithin_answers k hv.substitute (n := n) (by omega)
      simp only [hk, hu, hj, Walk.ofOption, pure_bind] at h
      by_cases hkeys : (g.info u).kind.isKey
      · simp only [hkeys, if_true, bind_error, pure_error, and_false, exists_false,
          or_false] at h
        exact ih.describe hv hle h
      · simp [hkeys, throw_error] at h
    | struct fs =>
      obtain ⟨j, hj⟩ := javaTypeWithin_answers k ht (n := n) (by omega)
      simp only [hk, hj, Walk.ofOption, bind_error, pure_error, and_false, exists_false,
        or_false] at h
      exact ih.visit ht (by omega) h
    | primitive _ | any | enumeration _ => simp [hk, pure_error] at h

theorem collectField_ends {n : Nat} (ih : Ends k n) {owner : TypeRef} {o : ObjectDescriptor}
    {f : Field} {p q : Progress} (howner : g.Meets s root owner)
    (hf : f ∈ (g.info owner).kind.fields)
    (hn : cost g p + g.bound + 2 * k.embeds owner + 1 ≤ n + 1) :
    Walk.collectField g s (n + 1) owner o f p ≠ .error .endless q := by
  intro h
  have hmeets := meets_field howner hf
  simp only [Walk.collectField] at h
  by_cases hi : f.isInline
  · obtain ⟨r, hr⟩ := resolves_below k hmeets (n := n) (by omega)
    simp only [hi, if_true, TypeGraph.embeddedWithin, hr, Option.map_some, Walk.ofOption,
      pure_bind] at h
    by_cases hs : (g.info (s.substitute r)).kind.isStruct
    · have he : g.Embeds s owner (s.substitute r) :=
        ⟨f, hf, hi, hs, r, (resolves_iff g hr).mpr rfl, rfl⟩
      have hlt := (k.embeds_ranks _ howner).2 _ he
      simp only [hs, if_true] at h
      exact ih.collect (Embeds.meets he howner) (by omega) h
    · simp [hs, throw_error] at h
  · have hrank := (k.contains_ranks _ hmeets.substitute).1
    simp only [hi, Bool.false_eq_true, if_false, bind_error, pure_error, and_false, exists_false,
      or_false] at h
    exact ih.describe hmeets (by omega) h

theorem collectFields_end {n : Nat} (ih : Ends k n) {owner : TypeRef} {fields : List Field}
    (howner : g.Meets s root owner) (hfields : ∀ f ∈ fields, f ∈ (g.info owner).kind.fields)
    {o : ObjectDescriptor} {p q : Progress}
    (hn : cost g p + g.bound + 2 * k.embeds owner + 1 ≤ n) :
    fields.foldlM (Walk.collectField g s n owner) o p ≠ .error .endless q := by
  -- By induction on the fields. As the walk goes on the cost can only fall.
  induction fields generalizing o p with
  | nil => simp [pure_error]
  | cons f fields ih' =>
    intro h
    rw [List.foldlM_cons, bind_error] at h
    obtain h | ⟨o', r, hok, h⟩ := h
    · exact ih.collectField howner (hfields f List.mem_cons_self) hn h
    · obtain ⟨_, vs, _, _, hgrows⟩ := (walk_grows g s n).2.1 hok
      have hle := cost_le (g := g) fun t ht => hgrows.subset ht
      exact ih' (fun f hf => hfields f (List.mem_cons_of_mem _ hf)) (by omega) h

theorem collect_ends {n : Nat} (ih : Ends k n) {t : TypeRef} {o : ObjectDescriptor}
    {p q : Progress} (ht : g.Meets s root t)
    (hn : cost g p + g.bound + 2 * k.embeds t + 2 ≤ n + 1) :
    Walk.collect g s (n + 1) t o p ≠ .error .endless q := by
  simp only [Walk.collect]
  exact collectFields_end ih ht (fun f hf => hf) (by omega)

theorem visit_ends (hfinite : ∀ t, g.Meets s root t → t ∈ g.refs) {n : Nat} (ih : Ends k n)
    {t : TypeRef} {p q : Progress} (ht : g.Meets s root t) (hn : cost g p ≤ n + 1) :
    Walk.visit g s (n + 1) t p ≠ .error .endless q := by
  by_cases hp : t ∈ p.types
  · simp [Registration.visit_begun n hp]
  · rw [Registration.visit_fresh n hp]
    intro h
    have hrank := (k.embeds_ranks t ht).1
    have hbegin := cost_begin (g.registration s t) (hfinite t ht) hp
    have hcost := bound_le_cost (g := g) (p.begin t (g.registration s t))
    obtain ⟨role, hrole⟩ := roleWithin_answers k ht (n := n) (by omega)
    simp only [Walk.fill, bind_error, modify_error, hrole, Walk.ofOption, pure_error, and_false,
      exists_false, or_false] at h
    exact ih.collect ht (by omega) h

theorem walk_ends (hfinite : ∀ t, g.Meets s root t → t ∈ g.refs) (n : Nat) : Ends k n := by
  induction n with
  | zero =>
    constructor
    case visit =>
      intro t p q ht hn
      have hrank := (k.embeds_ranks t ht).1
      have hcost := bound_le_cost (g := g) p
      omega
    all_goals
      intros
      omega
  | succ n ih =>
    exact {
      describe := describe_ends ih
      collectField := collectField_ends ih
      collect := collect_ends ih
      visit := visit_ends hfinite ih }

end

theorem depth_pos (g : TypeGraph) : 0 < g.depth :=
  Nat.mul_pos (Nat.succ_pos _) (Nat.succ_pos _)

theorem ofRoot_ends (h : g.Grounded s root) {n : Nat} (hn : g.depth ≤ n) (q : Progress) :
    Walk.ofRoot g s n (s.substitute root) ≠ .error .endless q := by
  obtain ⟨k⟩ := exists_ranking h
  have hroot : g.Meets s root (s.substitute root) := TypeGraph.Meets.root.substitute
  have hrank := (k.embeds_ranks _ hroot).1
  have hlt := Progress.unvisited_lt_bound g {}
  have hle := Nat.mul_le_mul_right (3 * g.bound + 5) (Nat.succ_le_of_lt hlt)
  apply (walk_ends (k := k) h.finite n).collect hroot
  simp only [TypeGraph.depth, cost, Nat.succ_mul] at hn hle ⊢
  omega

theorem entries_answer {n : Nat} {o : ObjectDescriptor} {p : Progress} (hn : 0 < n)
    (hw : Walk.ofRoot g s n root = .ok o p) : ∃ es, p.visited.mapM (g.entryWithin s n) = some es := by
  obtain ⟨n, rfl⟩ : ∃ m, n = m + 1 := ⟨n - 1, by omega⟩
  have hgrows := (ofRoot_grows g s hw).2
  apply mapM_answers
  intro v hv
  have hreach := (mem_types_iff g s hgrows v.type).mp (List.mem_map_of_mem hv)
  obtain ⟨hm, fields, hk⟩ := References.reachable_struct g s hreach
  simp [TypeGraph.entryWithin, TypeGraph.definitionWithin, TypeGraph.javaTypeWithin, hm, hk]

theorem generateWithin_ends (h : g.Grounded s root) {n : Nat} (hn : g.depth ≤ n) :
    (g.generateWithin s n root).result ≠ .error (.walk .endless) := by
  have hpos := depth_pos g
  by_cases hs : (g.info (s.substitute root)).kind.isStruct
  · simp only [TypeGraph.generateWithin, hs, not_true_eq_false, if_false]
    cases hw : Walk.ofRoot g s n (s.substitute root) with
    | error e p =>
      have hend := ofRoot_ends h hn p
      simp only [hw, ne_eq, EStateM.Result.error.injEq, and_true] at hend
      simpa using hend
    | ok o p =>
      obtain ⟨es, hes⟩ := entries_answer (by omega) hw
      simp only [hes]
      split <;> simp
  · simp [TypeGraph.generateWithin, hs]

/-- Below a root where optional layers, containers and embedded structs come to an end, a schema or
an error is found within the depth of the graph, and more room does not change it. In every walk,
also one that fails, no struct is begun twice, and each begun struct has one debug event; a struct
that has been begun is not walked again. -/
theorem generate_ends (h : g.Grounded s root) :
    (g.generate s root).result ≠ .error (.walk .endless) ∧
      (∀ n, g.depth ≤ n → g.generateWithin s n root = g.generate s root) ∧
      (∀ n, (Walk.begun g s n (s.substitute root)).Nodup ∧
        (g.generateWithin s n root).log.filter (·.level = .debug) =
          (Walk.begun g s n (s.substitute root)).map (g.registration s)) ∧
      ∀ n t p, t ∈ p.types → Walk.visit g s (n + 1) t p = .ok () p := by
  have hend := generateWithin_ends h (Nat.le_refl _)
  refine ⟨hend, fun n hn => Stability.generateWithin_settles hn hend, fun n => ⟨?_, ?_⟩, ?_⟩
  · exact (Registration.begun_begins n _).nodup
  · exact Registration.debug_events_begun n root
  · exact fun n t p ht => Registration.visit_begun n ht

def wholeShop : TypeGraph :=
  { shop with refs := Substitution.shopTypes }

/-- Orders embed a struct and contain items, and both lead back to orders. -/
def shopRank : TypeRef → Nat
  | .declared "Order" => 1
  | .list _ | .option _ | .map _ _ _ => 2
  | _ => 0

theorem wholeShop_grounded : wholeShop.Grounded shopSettings (.declared "Order") :=
  grounded_of_falls shopRank (by decide) (by decide) (by decide) (by decide) (by decide)

theorem wholeShop_generate_ends : wholeShop.Grounded shopSettings (.declared "Order") ∧
    wholeShop.Reachable shopSettings (.declared "Order") (.declared "Order") ∧
    (wholeShop.generate shopSettings (.declared "Order")).result ≠ .error (.walk .endless) ∧
    wholeShop.generateWithin shopSettings 10000 (.declared "Order") =
      wholeShop.generate shopSettings (.declared "Order") := by
  have hback : wholeShop.Refers shopSettings (.declared "Order") (.declared "Order") :=
    ⟨{ name := "next", type := .option (.declared "Order") },
      .own (by simp [wholeShop, shop, Kind.fields]) rfl,
      .optional rfl rfl (.struct (s := shopSettings) (r := .declared "Order") rfl rfl)⟩
  obtain ⟨hend, hmore, _⟩ := generate_ends wholeShop_grounded
  exact ⟨wholeShop_grounded, .single hback, hend, hmore 10000 (by decide)⟩

end Proofs.Termination

end ModelSchema
