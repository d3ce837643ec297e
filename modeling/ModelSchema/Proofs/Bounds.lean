import ModelSchema.Schema.Role

namespace ModelSchema.Proofs.Bounds

variable {α β : Type}

/-- What `a` answers, `b` answers too. -/
def Keeps (a b : Option α) : Prop :=
  ∀ x, a = some x → b = some x

theorem Keeps.refl (a : Option α) : Keeps a a :=
  fun _ h => h

theorem Keeps.none (b : Option α) : Keeps Option.none b :=
  fun _ h => by cases h

theorem Keeps.bind {a b : Option α} {f k : α → Option β} (h : Keeps a b)
    (hf : ∀ x, Keeps (f x) (k x)) : Keeps (a.bind f) (b.bind k) := by
  intro y hy
  obtain ⟨x, hx, hfx⟩ := Option.bind_eq_some_iff.mp hy
  rw [h x hx]
  exact hf x y hfx

theorem Keeps.map {a b : Option α} (f : α → β) (h : Keeps a b) : Keeps (a.map f) (b.map f) := by
  intro y hy
  obtain ⟨x, hx, rfl⟩ := Option.map_eq_some_iff.mp hy
  rw [h x hx]
  rfl

theorem Keeps.mapM {f k : α → Option β} (xs : List α) (h : ∀ x, Keeps (f x) (k x)) :
    Keeps (xs.mapM f) (xs.mapM k) := by
  induction xs with
  | nil => exact Keeps.refl _
  | cons x xs ih =>
    rw [List.mapM_cons, List.mapM_cons]
    exact (h x).bind fun y => ih.bind fun ys => Keeps.refl _

theorem Keeps.foldlM {f k : β → α → Option β} (xs : List α) (h : ∀ b x, Keeps (f b x) (k b x))
    (b : β) : Keeps (xs.foldlM f b) (xs.foldlM k b) := by
  induction xs generalizing b with
  | nil => exact Keeps.refl _
  | cons x xs ih =>
    rw [List.foldlM_cons, List.foldlM_cons]
    exact (h b x).bind fun c => ih c

theorem foldlM_property {P : β → Prop} {f : β → α → Option β} {xs : List α} {b c : β}
    (h : xs.foldlM f b = some c) (hstep : ∀ x ∈ xs, ∀ a a', f a x = some a' → P a → P a')
    (hb : P b) : P c := by
  induction xs generalizing b with
  | nil =>
    cases h
    exact hb
  | cons x xs ih =>
    rw [List.foldlM_cons] at h
    obtain ⟨a, ha, h⟩ := Option.bind_eq_some_iff.mp h
    exact ih h (fun y hy => hstep y (List.mem_cons_of_mem _ hy))
      (hstep x List.mem_cons_self b a ha hb)

theorem mem_of_mapM {f : α → Option β} {xs : List α} {ys : List β} (h : xs.mapM f = some ys) :
    (∀ x ∈ xs, ∃ y ∈ ys, f x = some y) ∧ ∀ y ∈ ys, ∃ x ∈ xs, f x = some y := by
  induction xs generalizing ys with
  | nil =>
    cases h
    simp
  | cons x xs ih =>
    rw [List.mapM_cons] at h
    obtain ⟨y, hy, h⟩ := Option.bind_eq_some_iff.mp h
    obtain ⟨zs, hz, h⟩ := Option.bind_eq_some_iff.mp h
    cases h
    obtain ⟨hl, hr⟩ := ih hz
    constructor
    · intro a ha
      obtain rfl | ha := List.mem_cons.mp ha
      · exact ⟨y, List.mem_cons_self, hy⟩
      · obtain ⟨b, hb, hab⟩ := hl a ha
        exact ⟨b, List.mem_cons_of_mem _ hb, hab⟩
    · intro b hb
      obtain rfl | hb := List.mem_cons.mp hb
      · exact ⟨x, List.mem_cons_self, hy⟩
      · obtain ⟨a, ha, hab⟩ := hr b hb
        exact ⟨a, List.mem_cons_of_mem _ ha, hab⟩

theorem map_mapM {γ : Type} {f : α → Option β} {a : α → γ} {b : β → γ}
    (hf : ∀ x y, f x = some y → b y = a x) {xs : List α} {ys : List β} (h : xs.mapM f = some ys) :
    ys.map b = xs.map a := by
  induction xs generalizing ys with
  | nil =>
    cases h
    rfl
  | cons x xs ih =>
    rw [List.mapM_cons] at h
    obtain ⟨y, hy, h⟩ := Option.bind_eq_some_iff.mp h
    obtain ⟨zs, hz, h⟩ := Option.bind_eq_some_iff.mp h
    cases h
    rw [List.map_cons, List.map_cons, hf x y hy, ih hz]

theorem unique {f : Nat → Option α} (h : ∀ {n m}, n ≤ m → Keeps (f n) (f m)) {n m : Nat} {x y : α}
    (hx : f n = some x) (hy : f m = some y) : x = y := by
  obtain hle | hle := Nat.le_total n m
  · exact Option.some.inj ((h hle x hx).symm.trans hy)
  · exact Option.some.inj (hx.symm.trans (h hle y hy))

variable (g : TypeGraph) (s : Settings)

theorem resolveWithin_keeps {n m : Nat} (h : n ≤ m) (r : TypeRef) :
    Keeps (g.resolveWithin n r) (g.resolveWithin m r) := by
  induction n generalizing m r with
  | zero => exact Keeps.none _
  | succ n ih =>
    obtain ⟨m, rfl⟩ : ∃ k, m = k + 1 := ⟨m - 1, by omega⟩
    unfold TypeGraph.resolveWithin
    split
    · exact ih (Nat.le_of_succ_le_succ h) _
    · exact Keeps.refl _

theorem embeddedWithin_keeps {n m : Nat} (h : n ≤ m) (r : TypeRef) :
    Keeps (g.embeddedWithin s n r) (g.embeddedWithin s m r) :=
  (resolveWithin_keeps g h r).map _

theorem javaTypeWithin_keeps {n m : Nat} (h : n ≤ m) (t : TypeRef) :
    Keeps (g.javaTypeWithin s n t) (g.javaTypeWithin s m t) := by
  induction n generalizing m t with
  | zero => exact Keeps.none _
  | succ n ih =>
    obtain ⟨m, rfl⟩ : ∃ k, m = k + 1 := ⟨m - 1, by omega⟩
    have hle : n ≤ m := Nat.le_of_succ_le_succ h
    unfold TypeGraph.javaTypeWithin
    cases s.manualType? t with
    | some javaType => exact Keeps.refl _
    | none =>
      cases (g.info t).kind with
      | optional e => exact ih hle _
      | seq e =>
        by_cases hb : g.isByte (s.substitute e)
        · simp only [hb, if_true]
          exact Keeps.refl _
        · simp only [hb]
          exact (ih hle _).map _
      | map k v => exact (ih hle _).map _
      | primitive p | any | struct fs | enumeration vs => exact Keeps.refl _

theorem fieldsWithin_keeps {n m : Nat} (h : n ≤ m) (t : TypeRef) :
    Keeps (g.fieldsWithin s n t) (g.fieldsWithin s m t) := by
  induction n generalizing m t with
  | zero => exact Keeps.none _
  | succ n ih =>
    obtain ⟨m, rfl⟩ : ∃ k, m = k + 1 := ⟨m - 1, by omega⟩
    have hle : n ≤ m := Nat.le_of_succ_le_succ h
    unfold TypeGraph.fieldsWithin
    refine (Keeps.mapM _ fun f => ?_).bind fun parts => Keeps.refl _
    by_cases hi : f.isInline
    · simp only [hi, if_true]
      exact (embeddedWithin_keeps g s hle f.type).bind fun e => ih hle e
    · simp only [hi]
      exact Keeps.refl _

theorem noteField_keeps {n m : Nat} (h : n ≤ m) (l : Landmarks) (f : Field) :
    Keeps (g.noteField n l f) (g.noteField m l f) := by
  unfold TypeGraph.noteField
  split
  · exact Keeps.refl _
  split
  · exact Keeps.refl _
  split
  · exact (resolveWithin_keeps g h f.type).map _
  · exact Keeps.refl _

theorem roleWithin_keeps {n m : Nat} (h : n ≤ m) (t : TypeRef) :
    Keeps (g.roleWithin s n t) (g.roleWithin s m t) := by
  unfold TypeGraph.roleWithin
  refine (fieldsWithin_keeps g s h t).bind fun fields => ?_
  refine (Keeps.foldlM _ (noteField_keeps g h) _).bind fun l => ?_
  split
  · exact Keeps.refl _
  split
  · exact Keeps.refl _
  split
  · refine (embeddedWithin_keeps g s h _).bind fun items => ?_
    split
    · split
      · exact (javaTypeWithin_keeps g s h _).bind fun item => Keeps.refl _
      · exact Keeps.refl _
    · exact Keeps.refl _
  · exact Keeps.refl _

end ModelSchema.Proofs.Bounds
