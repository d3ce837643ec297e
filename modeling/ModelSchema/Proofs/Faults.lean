import ModelSchema.Proofs.Termination

namespace ModelSchema

namespace TypeGraph

variable (g : TypeGraph) (s : Settings)

/-- The reference `r`, substituted once at every step, holds a map whose keys are of type `key`
without its optional layers. Structs, types that exist in Java already and bytes are not looked
into. -/
inductive HasKey : TypeRef → TypeRef → Prop where
  | key {r k v key : TypeRef} (hm : s.manualType? (s.substitute r) = none)
      (hk : (g.info (s.substitute r)).kind = .map k v) (hr : g.Resolves (s.substitute k) key) :
      HasKey r key
  | value {r k v key : TypeRef} (hm : s.manualType? (s.substitute r) = none)
      (hk : (g.info (s.substitute r)).kind = .map k v) (h : HasKey v key) : HasKey r key
  | optional {r e key : TypeRef} (hm : s.manualType? (s.substitute r) = none)
      (hk : (g.info (s.substitute r)).kind = .optional e) (h : HasKey e key) : HasKey r key
  | seq {r e key : TypeRef} (hm : s.manualType? (s.substitute r) = none)
      (hk : (g.info (s.substitute r)).kind = .seq e) (hb : g.isByte (s.substitute e) = false)
      (h : HasKey e key) : HasKey r key

def KeyFault (owner r : TypeRef) (e : WalkError) : Prop :=
  ∃ key, g.HasKey s r key ∧ (g.info key).kind.isKey = false ∧
    e = .unsupportedMapKey (g.displayName owner) (g.displayName key)

/-- A fault of the field `f` of `owner`, with the error that it is reported as. A field that embeds a
struct has the faults of all fields of that struct. -/
inductive FieldFault : TypeRef → Field → WalkError → Prop where
  | inline {owner r : TypeRef} {f : Field} (hi : f.isInline = true) (hr : g.Resolves f.type r)
      (hs : (g.info (s.substitute r)).kind.isStruct = false) :
      FieldFault owner f
        (.inlineNotStruct (g.displayName owner) f.name (g.displayName (s.substitute r)))
  | key {owner : TypeRef} {f : Field} {e : WalkError} (hi : f.isInline = false)
      (h : g.KeyFault s owner f.type e) : FieldFault owner f e
  | embedded {owner r : TypeRef} {f f' : Field} {e : WalkError} (hi : f.isInline = true)
      (hr : g.Resolves f.type r) (hf : f' ∈ (g.info (s.substitute r)).kind.fields)
      (h : FieldFault (s.substitute r) f' e) : FieldFault owner f e

/-- A fault among the fields of `t`. -/
def Fault (t : TypeRef) (e : WalkError) : Prop :=
  ∃ f ∈ (g.info t).kind.fields, g.FieldFault s t f e

/-- A fault of a struct that `t` reaches. -/
def FaultBelow (t : TypeRef) (e : WalkError) : Prop :=
  ∃ u, g.Reachable s t u ∧ g.Fault s u e

/-- A fault of `t`, or of a struct that it reaches. -/
def FaultFrom (t : TypeRef) (e : WalkError) : Prop :=
  g.Fault s t e ∨ g.FaultBelow s t e

def Cleans (p q : Progress) : Prop :=
  ∀ t ∈ q.types, t ∈ p.types ∨ ∀ e, ¬g.Fault s t e

end TypeGraph

/-- If `x` succeeds there are none of the faults `F`, and if it fails then for one of them or one of
the faults `B` of the structs it comes to. -/
structure Judges {α : Type} (g : TypeGraph) (s : Settings) (F B : WalkError → Prop)
    (x : Walk α) : Prop where
  passes : ∀ {p a q}, x p = .ok a q → (∀ e, ¬F e) ∧ g.Cleans s p q
  fails : ∀ {p e q}, x p = .error e q → e = .endless ∨ F e ∨ B e

namespace Judges

open Proofs.Success Proofs.Failure

variable {α β : Type} {g : TypeGraph} {s : Settings} {F B G C : WalkError → Prop}

theorem cleans_refl (p : Progress) : g.Cleans s p p :=
  fun _ ht => Or.inl ht

theorem cleans_trans {p q r : Progress} (h : g.Cleans s p q) (h' : g.Cleans s q r) :
    g.Cleans s p r := by
  intro t ht
  obtain ht | ht := h' t ht
  · exact h t ht
  · exact Or.inr ht

theorem pure (a : α) (h : ∀ e, ¬F e) : Judges g s F B (pure a : Walk α) where
  passes := by
    intro p b q hok
    obtain ⟨_, rfl⟩ := pure_ok.mp hok
    exact ⟨h, cleans_refl _⟩
  fails := fun hfail => (pure_error.mp hfail).elim

theorem throw {e : WalkError} (h : e = .endless ∨ F e) : Judges g s F B (throw e : Walk α) where
  passes := fun hok => (throw_ok.mp hok).elim
  fails := by
    intro p e' q hfail
    obtain ⟨rfl, _⟩ := throw_error.mp hfail
    exact h.imp_right Or.inl

theorem imp {x : Walk α} (h : Judges g s F B x) (hF : ∀ e, F e ↔ G e)
    (hB : ∀ e, B e → C e) : Judges g s G C x where
  passes := by
    intro p a q hok
    obtain ⟨hnone, hclean⟩ := h.passes hok
    exact ⟨fun e he => hnone e ((hF e).mpr he), hclean⟩
  fails := by
    intro p e q hfail
    obtain he | he | he := h.fails hfail
    · exact Or.inl he
    · exact Or.inr (Or.inl ((hF e).mp he))
    · exact Or.inr (Or.inr (hB e he))

theorem bind {x : Walk α} {k : α → Walk β} (h : Judges g s F B x)
    (hk : ∀ a, Judges g s G B (k a)) : Judges g s (fun e => F e ∨ G e) B (x >>= k) where
  passes := by
    intro p b r hok
    obtain ⟨a, q, hx, hok⟩ := bind_ok.mp hok
    obtain ⟨hnone, hclean⟩ := h.passes hx
    obtain ⟨hnone', hclean'⟩ := (hk a).passes hok
    exact ⟨fun e he => he.elim (hnone e) (hnone' e), cleans_trans hclean hclean'⟩
  fails := by
    intro p e r hfail
    obtain hfail | ⟨a, q, _, hfail⟩ := bind_error.mp hfail
    · obtain he | he | he := h.fails hfail
      · exact Or.inl he
      · exact Or.inr (Or.inl (Or.inl he))
      · exact Or.inr (Or.inr he)
    · obtain he | he | he := (hk a).fails hfail
      · exact Or.inl he
      · exact Or.inr (Or.inl (Or.inr he))
      · exact Or.inr (Or.inr he)

theorem complete (v : Visited) :
    Judges g s (fun _ => False) B (modify (·.complete v) : Walk Unit) where
  passes := by
    intro p u q hok
    obtain rfl := modify_ok.mp hok
    refine ⟨fun _ => id, fun t ht => Or.inl ?_⟩
    rwa [p.complete_types] at ht
  fails := fun hfail => (modify_error.mp hfail).elim

theorem map {x : Walk α} {k : α → β} (h : Judges g s F B x) :
    Judges g s F B (do let a ← x; return k a) :=
  (h.bind (G := fun _ => False) fun a => pure (k a) fun _ => id).imp (by simp) fun _ => id

theorem ofOption {a : Option α} {k : α → Walk β} (h : ∀ b, a = some b → Judges g s F B (k b)) :
    Judges g s F B (Walk.ofOption a >>= k) := by
  cases a with
  | none => exact throw (α := β) (Or.inl rfl)
  | some b => exact h b rfl

end Judges

namespace Proofs.Faults

open Reach Growth Failure Success

variable {g : TypeGraph} {s : Settings} {root : TypeRef}

theorem hasKey_iff {r key : TypeRef} : g.HasKey s r key ↔ s.manualType? (s.substitute r) = none ∧
    match (g.info (s.substitute r)).kind with
    | .optional e => g.HasKey s e key
    | .seq e => g.isByte (s.substitute e) = false ∧ g.HasKey s e key
    | .map k v => g.Resolves (s.substitute k) key ∨ g.HasKey s v key
    | _ => False := by
  constructor
  · intro h
    cases h with
    | key hm hk hr => simp [hm, hk, hr]
    | value hm hk h => simp [hm, hk, h]
    | optional hm hk h => simp [hm, hk, h]
    | seq hm hk hb h => simp [hm, hk, hb, h]
  · rintro ⟨hm, h⟩
    cases hk : (g.info (s.substitute r)).kind with
    | optional e =>
      simp only [hk] at h
      exact .optional hm hk h
    | seq e =>
      simp only [hk] at h
      exact .seq hm hk h.1 h.2
    | map k v =>
      simp only [hk] at h
      obtain h | h := h
      · exact .key hm hk h
      · exact .value hm hk h
    | primitive _ | any | struct _ | enumeration _ => simp [hk] at h

theorem keyFault_map_iff {owner r k v key : TypeRef} {e : WalkError}
    (hm : s.manualType? (s.substitute r) = none) (hk : (g.info (s.substitute r)).kind = .map k v)
    (hkey : ∀ u, g.Resolves (s.substitute k) u ↔ u = key)
    (hright : (g.info key).kind.isKey = true) :
    g.KeyFault s owner r e ↔ g.KeyFault s owner v e := by
  constructor
  · rintro ⟨u, hu, hnot, rfl⟩
    simp only [hasKey_iff (r := r), hm, hk, true_and, hkey] at hu
    obtain rfl | hu := hu
    · simp [hright] at hnot
    · exact ⟨u, hu, hnot, rfl⟩
  · rintro ⟨u, hu, hnot, rfl⟩
    exact ⟨u, .value hm hk hu, hnot, rfl⟩

theorem fieldFault_embedded_iff {owner r : TypeRef} {f : Field} {e : WalkError}
    (hi : f.isInline = true) (hr : ∀ u, g.Resolves f.type u ↔ u = r)
    (hs : (g.info (s.substitute r)).kind.isStruct = true) :
    g.FieldFault s owner f e ↔ g.Fault s (s.substitute r) e := by
  constructor
  · intro he
    cases he with
    | inline _ hr' hs' =>
      rw [(hr _).mp hr', hs] at hs'
      cases hs'
    | key hi' _ => simp [hi] at hi'
    | embedded _ hr' hf' he =>
      rw [(hr _).mp hr'] at hf' he
      exact ⟨_, hf', he⟩
  · rintro ⟨f', hf', he⟩
    exact .embedded hi ((hr r).mpr rfl) hf' he

theorem fieldFault_own_iff {owner : TypeRef} {f : Field} {e : WalkError} (hi : f.isInline = false) :
    g.FieldFault s owner f e ↔ g.KeyFault s owner f.type e := by
  constructor
  · intro he
    cases he with
    | key _ he => exact he
    | inline hi' _ _ | embedded hi' _ _ _ => simp [hi] at hi'
  · exact .key hi

theorem refers_embedded {owner r u : TypeRef} {f : Field} (hf : f ∈ (g.info owner).kind.fields)
    (hi : f.isInline = true) (hr : g.Resolves f.type r) (h : g.Refers s (s.substitute r) u) :
    g.Refers s owner u := by
  obtain ⟨f', hf', hu⟩ := h
  exact ⟨f', .embedded hf hi hr hf', hu⟩

theorem reachable_embedded {owner r u : TypeRef} {f : Field} (hf : f ∈ (g.info owner).kind.fields)
    (hi : f.isInline = true) (hr : g.Resolves f.type r) (h : g.Reachable s (s.substitute r) u) :
    g.Reachable s owner u := by
  obtain ⟨t, ht, hu⟩ := Relation.TransGen.head'_iff.mp h
  exact Relation.TransGen.head' (refers_embedded hf hi hr ht) hu

theorem faultBelow_of_refers {t u : TypeRef} {e : WalkError} (h : g.Refers s t u)
    (he : g.FaultFrom s u e) : g.FaultBelow s t e := by
  obtain he | ⟨w, hw, he⟩ := he
  · exact ⟨u, .single h, he⟩
  · exact ⟨w, .head h hw, he⟩

def FaultBehind (g : TypeGraph) (s : Settings) (r : TypeRef) (e : WalkError) : Prop :=
  ∃ u, g.Leads s r u ∧ g.FaultFrom s u e

structure WalkJudges (g : TypeGraph) (s : Settings) (n : Nat) : Prop where
  describe : ∀ owner r omitEmpty,
    Judges g s (g.KeyFault s owner r) (FaultBehind g s r) (Walk.describe g s n owner r omitEmpty)
  collectField : ∀ {owner f} o, f ∈ (g.info owner).kind.fields →
    Judges g s (g.FieldFault s owner f) (g.FaultBelow s owner) (Walk.collectField g s n owner o f)
  collect : ∀ t o, Judges g s (g.Fault s t) (g.FaultBelow s t) (Walk.collect g s n t o)
  visit : ∀ t, Judges g s (fun _ => False) (g.FaultFrom s t) (Walk.visit g s n t)

theorem describe_judges {n : Nat} (ih : WalkJudges g s n) (owner r : TypeRef) (omitEmpty : Bool) :
    Judges g s (g.KeyFault s owner r) (FaultBehind g s r)
      (Walk.describe g s (n + 1) owner r omitEmpty) := by
  simp only [Walk.describe]
  cases hm : s.manualType? (s.substitute r) with
  | some j =>
    apply Judges.pure
    rintro e ⟨key, hkey, _⟩
    simp [hasKey_iff (r := r), hm] at hkey
  | none =>
    cases hk : (g.info (s.substitute r)).kind with
    | optional elem =>
      refine (ih.describe owner elem omitEmpty).imp (fun e => ?_) fun e => ?_
      · simp only [TypeGraph.KeyFault, hasKey_iff (r := r), hm, hk, true_and]
      · rintro ⟨u, hu, he⟩
        exact ⟨u, .optional hm hk hu, he⟩
    | seq elem =>
      cases hb : g.isByte (s.substitute elem) with
      | true =>
        simp only [hb, if_true]
        apply Judges.pure
        rintro e ⟨key, hkey, _⟩
        simp [hasKey_iff (r := r), hm, hk, hb] at hkey
      | false =>
        simp only [hb, Bool.false_eq_true, if_false]
        refine (ih.describe owner elem false).map.imp (fun e => ?_) fun e => ?_
        · simp only [TypeGraph.KeyFault, hasKey_iff (r := r), hm, hk, hb, true_and]
        · rintro ⟨u, hu, he⟩
          exact ⟨u, .seq hm hk hb hu, he⟩
    | map k v =>
      apply Judges.ofOption
      intro key hkey
      have hresolves : ∀ u, g.Resolves (s.substitute k) u ↔ u = key := fun _ => resolves_iff g hkey
      by_cases hright : (g.info key).kind.isKey
      · simp only [hright, if_true]
        apply Judges.ofOption
        intro javaType _
        refine (ih.describe owner v false).map.imp (fun e => ?_) fun e => ?_
        · exact (keyFault_map_iff hm hk hresolves hright).symm
        · rintro ⟨u, hu, he⟩
          exact ⟨u, .map hm hk hu, he⟩
      · simp only [hright]
        apply Judges.throw
        exact Or.inr ⟨key, .key hm hk ((hresolves key).mpr rfl), by simpa using hright, rfl⟩
    | struct fs =>
      have hvisit : Judges g s (fun _ => False) (FaultBehind g s r)
          (Walk.visit g s n (s.substitute r)) := by
        refine (ih.visit (s.substitute r)).imp (fun _ => Iff.rfl) fun e he => ?_
        exact ⟨_, .struct hm hk, he⟩
      refine (hvisit.bind (G := fun _ => False) fun _ => ?_).imp (fun e => ?_) fun _ => id
      · apply Judges.ofOption
        intro javaType _
        exact Judges.pure _ fun _ => id
      · simp [TypeGraph.KeyFault, hasKey_iff (r := r), hm, hk]
    | primitive _ | any | enumeration _ =>
      apply Judges.pure
      rintro e ⟨key, hkey, _⟩
      simp [hasKey_iff (r := r), hm, hk] at hkey

theorem collectField_judges {n : Nat} (ih : WalkJudges g s n) {owner : TypeRef} {f : Field}
    (o : ObjectDescriptor) (hf : f ∈ (g.info owner).kind.fields) :
    Judges g s (g.FieldFault s owner f) (g.FaultBelow s owner)
      (Walk.collectField g s (n + 1) owner o f) := by
  simp only [Walk.collectField]
  cases hi : f.isInline with
  | true =>
    simp only [if_true]
    apply Judges.ofOption
    intro embedded hembedded
    obtain ⟨r, hresolved, rfl⟩ := Option.map_eq_some_iff.mp hembedded
    have hr : ∀ u, g.Resolves f.type u ↔ u = r := fun _ => resolves_iff g hresolved
    by_cases hs : (g.info (s.substitute r)).kind.isStruct
    · simp only [hs, if_true]
      refine (ih.collect (s.substitute r) o).imp (fun e => ?_) fun e => ?_
      · exact (fieldFault_embedded_iff hi hr hs).symm
      · rintro ⟨u, hu, he⟩
        exact ⟨u, reachable_embedded hf hi ((hr r).mpr rfl) hu, he⟩
    · simp only [hs]
      apply Judges.throw
      exact Or.inr (.inline hi ((hr r).mpr rfl) (by simpa using hs))
  | false =>
    simp only [Bool.false_eq_true, if_false]
    refine (ih.describe owner f.type f.omitEmpty).map.imp (fun e => ?_) fun e => ?_
    · exact (fieldFault_own_iff hi).symm
    · rintro ⟨u, hu, he⟩
      exact faultBelow_of_refers ⟨f, .own hf hi, hu⟩ he

theorem collectFields_judge {n : Nat} (ih : WalkJudges g s n) {owner : TypeRef}
    {fields : List Field} (hfields : ∀ f ∈ fields, f ∈ (g.info owner).kind.fields)
    (o : ObjectDescriptor) :
    Judges g s (fun e => ∃ f ∈ fields, g.FieldFault s owner f e) (g.FaultBelow s owner)
      (fields.foldlM (Walk.collectField g s n owner) o) := by
  -- By induction on the fields: the walk stops at the first that has a fault.
  induction fields generalizing o with
  | nil =>
    apply Judges.pure
    simp
  | cons f fields ih' =>
    rw [List.foldlM_cons]
    have hfirst := ih.collectField o (hfields f List.mem_cons_self)
    have hrest := ih' fun f hf => hfields f (List.mem_cons_of_mem _ hf)
    refine (hfirst.bind hrest).imp (fun e => ?_) fun _ => id
    simp

theorem visit_judges {n : Nat} (ih : WalkJudges g s n) (t : TypeRef) :
    Judges g s (fun _ => False) (g.FaultFrom s t) (Walk.visit g s (n + 1) t) := by
  -- A struct that is visited for the first time is checked before the visit ends, so its faults are
  -- found even where its own fields lead back to it.
  have hfill : Judges g s (g.Fault s t) (g.FaultBelow s t) (Walk.fill g s n t) := by
    refine ((ih.collect t .open).bind (G := fun _ => False) fun o => ?_).imp (by simp)
      fun _ => id
    apply Judges.ofOption
    exact fun role _ => Judges.complete _
  constructor
  · intro p u q hok
    refine ⟨fun _ => id, fun v hv => ?_⟩
    by_cases ht : t ∈ p.types
    · rw [Registration.visit_begun n ht] at hok
      cases hok
      exact Or.inl hv
    · rw [Registration.visit_fresh n ht] at hok
      obtain ⟨hnone, hclean⟩ := hfill.passes hok
      obtain hv | hv := hclean v hv
      · rw [Progress.begin_types, List.mem_append, List.mem_singleton] at hv
        obtain hv | rfl := hv
        · exact Or.inl hv
        · exact Or.inr hnone
      · exact Or.inr hv
  · intro p e q hfail
    by_cases ht : t ∈ p.types
    · rw [Registration.visit_begun n ht] at hfail
      cases hfail
    · rw [Registration.visit_fresh n ht] at hfail
      exact (hfill.fails hfail).imp_right Or.inr

theorem walk_judges (n : Nat) : WalkJudges g s n := by
  induction n with
  | zero =>
    exact {
      describe := fun _ _ _ => Judges.throw (Or.inl rfl)
      collectField := fun _ _ => Judges.throw (Or.inl rfl)
      collect := fun _ _ => Judges.throw (Or.inl rfl)
      visit := fun _ => Judges.throw (Or.inl rfl) }
  | succ n ih =>
    exact {
      describe := describe_judges ih
      collectField := collectField_judges ih
      collect := fun t o => by
        simp only [Walk.collect]
        exact collectFields_judge ih (fun f hf => hf) o
      visit := visit_judges ih }

/-- A walk that succeeds has come to everything that its root reaches, and found no fault. -/
theorem ofRoot_passes {n : Nat} {o : ObjectDescriptor} {p : Progress}
    (h : Walk.ofRoot g s n root = .ok o p) (e : WalkError) : ¬g.FaultFrom s root e := by
  obtain ⟨hnone, hclean⟩ := ((walk_judges n).collect root .open).passes h
  rintro (he | ⟨u, hu, he⟩)
  · exact hnone e he
  · have hmem := (mem_types_iff g s (ofRoot_grows g s h).2 u).mpr hu
    obtain hnil | hu := hclean u hmem
    · cases hnil
    · exact hu e he

theorem ofRoot_fails {n : Nat} {e : WalkError} {p : Progress}
    (h : Walk.ofRoot g s n root = .error e p) : e = .endless ∨ g.FaultFrom s root e :=
  ((walk_judges n).collect root .open).fails h

theorem generateWithin_fails {n : Nat} {e : WalkError} (hend : e ≠ .endless)
    (h : (g.generateWithin s n root).result = .error (.walk e)) :
    g.FaultFrom s (s.substitute root) e := by
  by_cases hs : (g.info (s.substitute root)).kind.isStruct
  · simp only [TypeGraph.generateWithin, hs, not_true_eq_false, if_false] at h
    cases hw : Walk.ofRoot g s n (s.substitute root) with
    | error e' p =>
      simp only [hw, Except.error.injEq, GenerateError.walk.injEq] at h
      subst h
      exact (ofRoot_fails hw).resolve_left hend
    | ok o p =>
      simp only [hw] at h
      split at h
      · cases h
        exact absurd rfl hend
      · split at h <;> cases h
  · simp [TypeGraph.generateWithin, hs] at h

theorem generateWithin_rejects {n : Nat} {e : WalkError}
    (hs : (g.info (s.substitute root)).kind.isStruct = true)
    (hend : (g.generateWithin s n root).result ≠ .error (.walk .endless))
    (he : g.FaultFrom s (s.substitute root) e) :
    ∃ e', e' ≠ .endless ∧ (g.generateWithin s n root).result = .error (.walk e') := by
  cases hw : Walk.ofRoot g s n (s.substitute root) with
  | ok o p => exact absurd he (ofRoot_passes hw e)
  | error e' p =>
    have hresult : (g.generateWithin s n root).result = .error (.walk e') := by
      simp [TypeGraph.generateWithin, hs, hw]
    exact ⟨e', fun heq => hend (heq ▸ hresult), hresult⟩

end Proofs.Faults

end ModelSchema
