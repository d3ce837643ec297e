import ModelSchema.Proofs.Definitions

namespace ModelSchema

def Walk.after {α : Type} (x : Walk α) (p : Progress) : Progress :=
  match x p with
  | .ok _ q => q
  | .error _ q => q

def Walk.fill (g : TypeGraph) (s : Settings) (n : Nat) (t : TypeRef) : Walk Unit := do
  let o ← collect g s n t .open
  let role ← ofOption (g.roleWithin s n t)
  modify (·.complete ⟨t, some (s.pinned (g.info t) role o), role⟩)

/-- The structs whose fields the walk of `root` began to describe, in order. -/
def Walk.begun (g : TypeGraph) (s : Settings) (n : Nat) (root : TypeRef) : List TypeRef :=
  (after (collect g s n root .open) {}).types

/-- From `p` to `q` the walk has begun the structs `ts`. -/
structure Begins (g : TypeGraph) (s : Settings) (p : Progress) (ts : List TypeRef)
    (q : Progress) : Prop where
  types : q.types = p.types ++ ts
  log : q.log = p.log ++ ts.map (g.registration s)
  nodup : ts.Nodup
  fresh : ∀ t ∈ ts, t ∉ p.types

namespace Begins

variable {g : TypeGraph} {s : Settings} {p q r : Progress} {ts us : List TypeRef}

theorem refl (p : Progress) : Begins g s p [] p where
  types := (List.append_nil _).symm
  log := (List.append_nil _).symm
  nodup := List.nodup_nil
  fresh := by simp

theorem trans (h : Begins g s p ts q) (h' : Begins g s q us r) :
    Begins g s p (ts ++ us) r where
  types := by rw [h'.types, h.types, List.append_assoc]
  log := by rw [h'.log, h.log, List.map_append, List.append_assoc]
  nodup := by
    rw [List.nodup_append']
    refine ⟨h.nodup, h'.nodup, fun t ht hu => h'.fresh t hu ?_⟩
    rw [h.types]
    exact List.mem_append_right _ ht
  fresh := by
    intro t ht
    obtain ht | ht := List.mem_append.mp ht
    · exact h.fresh t ht
    · intro hp
      apply h'.fresh t ht
      rw [h.types]
      exact List.mem_append_left _ hp

theorem begin {t : TypeRef} (ht : t ∉ p.types) :
    Begins g s p [t] (p.begin t (g.registration s t)) where
  types := p.begin_types t _
  log := rfl
  nodup := List.nodup_singleton t
  fresh := by
    rintro u hu
    rw [List.mem_singleton.mp hu]
    exact ht

theorem complete (v : Visited) : Begins g s p [] (p.complete v) where
  types := by rw [p.complete_types, List.append_nil]
  log := (List.append_nil _).symm
  nodup := List.nodup_nil
  fresh := by simp

end Begins

/-- Whatever becomes of `x`, it begins new structs only. -/
def Registers {α : Type} (g : TypeGraph) (s : Settings) (x : Walk α) : Prop :=
  ∀ p, ∃ ts, Begins g s p ts (x.after p)

namespace Registers

variable {α β : Type} {g : TypeGraph} {s : Settings}

theorem pure (a : α) : Registers g s (pure a : Walk α) :=
  fun p => ⟨[], Begins.refl p⟩

theorem throw (e : WalkError) : Registers g s (throw e : Walk α) :=
  fun p => ⟨[], Begins.refl p⟩

theorem ofOption (a : Option α) : Registers g s (Walk.ofOption a) := by
  cases a with
  | none => exact throw .endless
  | some a => exact pure a

theorem complete (v : Visited) : Registers g s (modify (·.complete v) : Walk Unit) :=
  fun _ => ⟨[], Begins.complete v⟩

theorem bind {x : Walk α} {k : α → Walk β} (h : Registers g s x)
    (hk : ∀ a, Registers g s (k a)) : Registers g s (x >>= k) := by
  intro p
  obtain ⟨ts, hts⟩ := h p
  show ∃ us, Begins g s p us (Walk.after (EStateM.bind x k) p)
  simp only [Walk.after, EStateM.bind] at hts ⊢
  cases hx : x p with
  | error e q =>
    rw [hx] at hts
    exact ⟨ts, hts⟩
  | ok a q =>
    rw [hx] at hts
    obtain ⟨us, hus⟩ := hk a q
    exact ⟨ts ++ us, hts.trans hus⟩

theorem foldlM {f : β → α → Walk β} (h : ∀ b a, Registers g s (f b a)) (xs : List α) (b : β) :
    Registers g s (xs.foldlM f b) := by
  induction xs generalizing b with
  | nil => exact pure b
  | cons x xs ih =>
    rw [List.foldlM_cons]
    exact (h b x).bind ih

end Registers

namespace Proofs.Registration

variable (g : TypeGraph) (s : Settings)

structure WalkRegisters (n : Nat) : Prop where
  collect : ∀ t o, Registers g s (Walk.collect g s n t o)
  collectField : ∀ owner o f, Registers g s (Walk.collectField g s n owner o f)
  describe : ∀ owner r omitEmpty, Registers g s (Walk.describe g s n owner r omitEmpty)
  visit : ∀ t, Registers g s (Walk.visit g s n t)

variable {g s}

theorem collectField_registers {n : Nat} (ih : WalkRegisters g s n) (owner : TypeRef)
    (o : ObjectDescriptor) (f : Field) :
    Registers g s (Walk.collectField g s (n + 1) owner o f) := by
  simp only [Walk.collectField]
  split
  · refine (Registers.ofOption _).bind fun e => ?_
    split
    · exact ih.collect e o
    · exact Registers.throw _
  · exact (ih.describe owner f.type f.omitEmpty).bind fun p => Registers.pure _

theorem describe_registers {n : Nat} (ih : WalkRegisters g s n) (owner r : TypeRef)
    (omitEmpty : Bool) : Registers g s (Walk.describe g s (n + 1) owner r omitEmpty) := by
  simp only [Walk.describe]
  split
  · exact Registers.pure _
  · split
    · exact Registers.pure _
    · exact Registers.pure _
    · exact Registers.pure _
    · exact ih.describe owner _ omitEmpty
    · split
      · exact Registers.pure _
      · exact (ih.describe owner _ false).bind fun items => Registers.pure _
    · refine (Registers.ofOption _).bind fun key => ?_
      split
      · refine (Registers.ofOption _).bind fun j => ?_
        exact (ih.describe owner _ false).bind fun value => Registers.pure _
      · exact Registers.throw _
    · refine (ih.visit _).bind fun _ => ?_
      exact (Registers.ofOption _).bind fun j => Registers.pure _

theorem visit_begun (n : Nat) {t : TypeRef} {p : Progress} (ht : t ∈ p.types) :
    Walk.visit g s (n + 1) t p = .ok () p := by
  simp only [Walk.visit]
  show (if t ∈ p.types then _ else _ : Walk Unit) p = _
  rw [if_pos ht]
  rfl

theorem visit_fresh (n : Nat) {t : TypeRef} {p : Progress} (ht : t ∉ p.types) :
    Walk.visit g s (n + 1) t p = Walk.fill g s n t (p.begin t (g.registration s t)) := by
  simp only [Walk.visit]
  show (if t ∈ p.types then _ else _ : Walk Unit) p = _
  rw [if_neg ht]
  rfl

theorem visit_registers {n : Nat} (ih : WalkRegisters g s n) (t : TypeRef) :
    Registers g s (Walk.visit g s (n + 1) t) := by
  intro p
  by_cases ht : t ∈ p.types
  · exact ⟨[], by simpa only [Walk.after, visit_begun n ht] using Begins.refl p⟩
  · have hfill : Registers g s (Walk.fill g s n t) := by
      refine (ih.collect t _).bind fun o => ?_
      exact (Registers.ofOption _).bind fun role => Registers.complete _
    obtain ⟨ts, hts⟩ := hfill (p.begin t (g.registration s t))
    refine ⟨[t] ++ ts, ?_⟩
    simp only [Walk.after, visit_fresh n ht] at hts ⊢
    exact (Begins.begin ht).trans hts

theorem walk_registers (n : Nat) : WalkRegisters g s n := by
  induction n with
  | zero =>
    exact {
      collect := fun _ _ => Registers.throw _
      collectField := fun _ _ _ => Registers.throw _
      describe := fun _ _ _ => Registers.throw _
      visit := fun _ => Registers.throw _ }
  | succ n ih =>
    exact {
      collect := fun t o => by
        simp only [Walk.collect]
        exact Registers.foldlM (ih.collectField t) _ o
      collectField := collectField_registers ih
      describe := describe_registers ih
      visit := visit_registers ih }

theorem begun_begins (n : Nat) (root : TypeRef) :
    Begins g s {} (Walk.begun g s n root) (Walk.after (Walk.collect g s n root .open) {}) := by
  obtain ⟨ts, hts⟩ := (walk_registers (g := g) (s := s) n).collect root .open {}
  have he : Walk.begun g s n root = ts := hts.types
  rw [he]
  exact hts

theorem begun_of_not_struct (n : Nat) {root : TypeRef}
    (h : (g.info root).kind.isStruct = false) : Walk.begun g s n root = [] := by
  cases n with
  | zero => rfl
  | succ n =>
    simp only [Walk.begun, Walk.collect]
    cases hk : (g.info root).kind with
    | struct fs => simp [hk, Kind.isStruct] at h
    | primitive _ | any | optional _ | seq _ | map _ _ | enumeration _ => rfl

theorem addAll_log (a : Assembly) (es : List Entry) :
    ∀ x ∈ (a.addAll es).1.log, x ∈ a.log ∨ x.level = .warning := by
  induction es generalizing a with
  | nil => exact fun x hx => Or.inl hx
  | cons e es ih =>
    intro x hx
    simp only [Assembly.addAll] at hx
    split at hx
    · exact Or.inl hx
    · exact Assembly.mem_note_log hx
    · obtain hx | hx := ih _ x hx
      · exact Assembly.mem_note_log hx
      · exact Or.inr hx

/-- The debug events of a generation, whatever comes out of it, are one for each struct that the
walk began. -/
theorem debug_events_begun (n : Nat) (root : TypeRef) :
    (g.generateWithin s n root).log.filter (·.level = .debug) =
      (Walk.begun g s n (s.substitute root)).map (g.registration s) := by
  have hbegins := begun_begins (g := g) (s := s) n (s.substitute root)
  have hkeep : ∀ ts : List TypeRef, (ts.map (g.registration s)).filter (·.level = .debug) =
      ts.map (g.registration s) := by
    intro ts
    rw [List.filter_eq_self]
    intro x hx
    obtain ⟨t, _, rfl⟩ := List.mem_map.mp hx
    rfl
  have hdrop : ∀ es : List Entry, (assemble es).1.log.filter (·.level = .debug) = [] := by
    intro es
    rw [List.filter_eq_nil_iff]
    intro x hx
    obtain hx | hx := addAll_log {} _ x hx
    · cases hx
    · simp [hx]
  by_cases hs : (g.info (s.substitute root)).kind.isStruct
  · have hlog := hbegins.log
    simp only [TypeGraph.generateWithin, hs, not_true_eq_false, if_false, Walk.ofRoot]
    simp only [Walk.after] at hlog
    cases hw : Walk.collect g s n (s.substitute root) .open {} with
    | error e p =>
      simp only [hw, List.nil_append] at hlog
      simp only [hlog, hkeep]
    | ok o p =>
      simp only [hw, List.nil_append] at hlog
      dsimp only
      cases p.visited.mapM (g.entryWithin s n) with
      | none => simp only [hlog, hkeep]
      | some es =>
        have hes := hdrop es
        dsimp only
        split
        · rename_i a e ha
          rw [ha] at hes
          rw [List.filter_append, hlog, hkeep, hes, List.append_nil]
        · rename_i a ha
          rw [ha] at hes
          rw [List.filter_append, List.filter_append, hlog, hkeep, hes]
          simp [Event.level]
  · rw [begun_of_not_struct n (by simpa using hs)]
    simp [TypeGraph.generateWithin, hs]

end Proofs.Registration

end ModelSchema
