import ModelSchema.Proofs.Definitions

namespace ModelSchema

namespace Assembly

/-- What an assembly can end with when it comes to several entries called `name`. -/
def TiedError (name : String) (e : AssemblyError) : Prop :=
  e = .duplicateDefinition name ∨ e = .duplicateResource (Text.lowercase name) name

variable {a : Assembly} {e f : Entry} {es fs : List Entry}

theorem error?_tied {x : AssemblyError} (h : a.error? e = some x) : TiedError e.name x := by
  unfold error? at h
  split at h
  · exact Or.inl (Option.some.inj h).symm
  split at h
  · rename_i hheld
    refine Or.inr ((Option.some.inj h).symm.trans ?_)
    -- The second choice of a key is made only because the first is held, so it is what is held.
    unfold resourceKey at hheld ⊢
    dsimp only at hheld ⊢
    by_cases hfirst : holds a.resources (Text.lowercase e.typeName)
    · simp only [hfirst, if_true]
    · simp only [hfirst, Bool.false_eq_true, if_false] at hheld
  · cases h

theorem addAll_of_error {x : AssemblyError} (h : a.error? e = some x) :
    (a.addAll (e :: es)).2 = some x := by
  unfold addAll
  rw [h]
  cases x <;> rfl

theorem addAll_of_none (h : a.error? e = none) : a.addAll (e :: es) = (a.add e).addAll es := by
  rw [addAll, h]

theorem error?_of_held (h : holds a.definitions e.name) :
    a.error? e = some (.duplicateDefinition e.name) := by
  rw [error?, if_pos h]

theorem holds_add (h : a.error? e = none) : holds (a.add e).definitions e.name := by
  have hp := Entries.insertSorted_perm e.definition (error?_eq_none h).1
  exact (holds_iff _ _).mpr (List.mem_map.mpr ⟨_, hp.mem_iff.mpr List.mem_cons_self, rfl⟩)

theorem addAll_tied (hs : (e :: es).Pairwise (·.name ≤ ·.name)) (hf : f ∈ es)
    (hn : f.name = e.name) : ∃ x, (a.addAll (e :: es)).2 = some x ∧ TiedError e.name x := by
  cases he : a.error? e with
  | some x => exact ⟨x, addAll_of_error he, error?_tied he⟩
  | none =>
    rw [addAll_of_none he]
    cases es with
    | nil => cases hf
    | cons next es =>
      obtain ⟨hle, hes⟩ := List.pairwise_cons.mp hs
      have hnext : next.name = e.name := by
        apply String.le_antisymm _ (hle next List.mem_cons_self)
        obtain rfl | hf := List.mem_cons.mp hf
        · exact hn ▸ String.le_refl _
        · exact hn ▸ (List.pairwise_cons.mp hes).1 f hf
      have hheld : holds (a.add e).definitions next.name := hnext ▸ holds_add he
      exact ⟨_, addAll_of_error (error?_of_held hheld), Or.inl (hnext ▸ rfl)⟩

theorem addAll_orders (hes : es.Pairwise (·.name ≤ ·.name)) (hfs : fs.Pairwise (·.name ≤ ·.name))
    (hp : es.Perm fs) : a.addAll es = a.addAll fs ∨
      ∃ e ∈ es, ∃ f ∈ es, e ≠ f ∧ e.name = f.name ∧
        (∃ x, (a.addAll es).2 = some x ∧ TiedError e.name x) ∧
        ∃ y, (a.addAll fs).2 = some y ∧ TiedError e.name y := by
  induction es generalizing a fs with
  | nil => exact Or.inl (congrArg a.addAll (List.nil_perm.mp hp).symm)
  | cons e es ih =>
    cases fs with
    | nil => exact absurd hp.length_eq (by simp)
    | cons f fs =>
      by_cases hef : e = f
      · subst hef
        cases he : a.error? e with
        | some x => exact Or.inl (by unfold addAll; rw [he]; cases x <;> rfl)
        | none =>
          rw [addAll_of_none he, addAll_of_none he]
          obtain h | ⟨b, hb, c, hc, hbc⟩ := ih (a := a.add e) (List.pairwise_cons.mp hes).2
            (List.pairwise_cons.mp hfs).2 ((List.perm_cons e).mp hp)
          · exact Or.inl h
          · exact Or.inr ⟨b, List.mem_cons_of_mem _ hb, c, List.mem_cons_of_mem _ hc, hbc⟩
      · have hf : f ∈ es := (List.mem_cons.mp (hp.mem_iff.mpr List.mem_cons_self)).resolve_left
          (Ne.symm hef)
        have he : e ∈ fs := (List.mem_cons.mp (hp.mem_iff.mp List.mem_cons_self)).resolve_left hef
        have hn : e.name = f.name := String.le_antisymm ((List.pairwise_cons.mp hes).1 f hf)
          ((List.pairwise_cons.mp hfs).1 e he)
        refine Or.inr ⟨e, List.mem_cons_self, f, List.mem_cons_of_mem _ hf, hef, hn, ?_, ?_⟩
        · exact addAll_tied hes hf hn.symm
        · exact hn ▸ addAll_tied hfs he hn

end Assembly

namespace TypeGraph

variable (g : TypeGraph) (s : Settings)

/-- The result of putting together the structs that a walk from `root` came to, enumerated in the
order of `vs`; `o` is the object of the root. -/
def resultWithin (n : Nat) (root : TypeRef) (o : ObjectDescriptor) (vs : List Visited) :
    Except GenerateError Document :=
  match vs.mapM (g.entryWithin s n) with
  | none => .error (.walk .endless)
  | some es =>
    match assemble es with
    | (_, some e) => .error (.assembly e)
    | (a, none) => .ok (document s (g.info root) o a)

end TypeGraph

namespace Proofs.Enumeration

open Bounds Reach

variable {g : TypeGraph} {s : Settings} {n : Nat} {root : TypeRef} {o : ObjectDescriptor}
  {p : Progress} {vs ws : List Visited} {v w : Visited}

theorem generateWithin_result (hs : (g.info (s.substitute root)).kind.isStruct)
    (hw : Walk.ofRoot g s n (s.substitute root) = .ok o p) :
    (g.generateWithin s n root).result = g.resultWithin s n (s.substitute root) o p.visited := by
  unfold TypeGraph.generateWithin TypeGraph.resultWithin
  simp only [hs, not_true_eq_false, if_false, hw]
  cases p.visited.mapM (g.entryWithin s n) with
  | none => rfl
  | some es =>
    dsimp only
    split <;> simp_all

theorem mapM_perm {α β : Type} {f : α → Option β} {xs ys : List α} (h : xs.Perm ys)
    {zs : List β} (hx : xs.mapM f = some zs) : ∃ us, ys.mapM f = some us ∧ zs.Perm us := by
  induction h generalizing zs with
  | nil => exact ⟨zs, hx, List.Perm.refl _⟩
  | cons x h ih =>
    rw [List.mapM_cons] at hx
    obtain ⟨z, hz, hx⟩ := Option.bind_eq_some_iff.mp hx
    obtain ⟨zs', hzs, hx⟩ := Option.bind_eq_some_iff.mp hx
    cases hx
    obtain ⟨us, hus, hp⟩ := ih hzs
    exact ⟨z :: us, by rw [List.mapM_cons, hz, hus]; rfl, hp.cons z⟩
  | swap x y l =>
    rw [List.mapM_cons, List.mapM_cons] at hx
    obtain ⟨b, hb, hx⟩ := Option.bind_eq_some_iff.mp hx
    obtain ⟨zs', hzs, hx⟩ := Option.bind_eq_some_iff.mp hx
    obtain ⟨a, ha, hzs⟩ := Option.bind_eq_some_iff.mp hzs
    obtain ⟨us, hus, hzs⟩ := Option.bind_eq_some_iff.mp hzs
    cases hx
    cases hzs
    exact ⟨a :: b :: us, by rw [List.mapM_cons, List.mapM_cons, ha, hb, hus]; rfl,
      List.Perm.swap a b us⟩
  | trans _ _ ih ih' =>
    obtain ⟨us, hus, hp⟩ := ih hx
    obtain ⟨ts, hts, hp'⟩ := ih' hus
    exact ⟨ts, hts, hp.trans hp'⟩

theorem resultWithin_of_error {es : List Entry} {x : AssemblyError}
    (hes : vs.mapM (g.entryWithin s n) = some es) (hx : (assemble es).2 = some x) :
    g.resultWithin s n root o vs = .error (.assembly x) := by
  unfold TypeGraph.resultWithin
  rw [hes]
  dsimp only
  split <;> simp_all

theorem resultWithin_orders (hp : vs.Perm ws) (root : TypeRef) (o : ObjectDescriptor) :
    g.resultWithin s n root o vs = g.resultWithin s n root o ws ∨
      ∃ e f, e ≠ f ∧ e.name = f.name ∧ (∃ v ∈ vs, g.entryWithin s n v = some e) ∧
        (∃ v ∈ vs, g.entryWithin s n v = some f) ∧
        (∃ x, g.resultWithin s n root o vs = .error (.assembly x) ∧
          Assembly.TiedError e.name x) ∧
        ∃ y, g.resultWithin s n root o ws = .error (.assembly y) ∧
          Assembly.TiedError e.name y := by
  cases hes : vs.mapM (g.entryWithin s n) with
  | none =>
    cases hfs : ws.mapM (g.entryWithin s n) with
    | none => exact Or.inl (by unfold TypeGraph.resultWithin; rw [hes, hfs])
    | some fs =>
      obtain ⟨es, hes', _⟩ := mapM_perm hp.symm hfs
      cases hes.symm.trans hes'
  | some es =>
    obtain ⟨fs, hfs, hperm⟩ := mapM_perm hp hes
    have hsorted : (sortEntries es).Perm (sortEntries fs) :=
      (sortEntries_perm es).trans (hperm.trans (sortEntries_perm fs).symm)
    obtain h | ⟨e, he, f, hf, hef, hn, ⟨x, hx, hxt⟩, y, hy, hyt⟩ := Assembly.addAll_orders (a := {})
      (sortEntries_sorted es) (sortEntries_sorted fs) hsorted
    · refine Or.inl ?_
      have ha : assemble es = assemble fs := h
      unfold TypeGraph.resultWithin
      rw [hes, hfs]
      dsimp only
      rw [ha]
    · have hmem := (mem_of_mapM hes).2
      exact Or.inr ⟨e, f, hef, hn, hmem e ((sortEntries_perm es).mem_iff.mp he),
        hmem f ((sortEntries_perm es).mem_iff.mp hf), ⟨x, resultWithin_of_error hes hx, hxt⟩,
        y, resultWithin_of_error hfs hy, hyt⟩

theorem type_ne (hw : Walk.ofRoot g s n root = .ok o p) (hv : v ∈ p.visited)
    (hw' : w ∈ p.visited) {e f : Entry} (he : g.entryWithin s n v = some e)
    (hf : g.entryWithin s n w = some f) (hef : e ≠ f) : v.type ≠ w.type := by
  intro ht
  have hvw : v = w := List.inj_on_of_nodup_map (Growth.ofRoot_grows g s hw).2.nodup hv hw' ht
  rw [hvw, hf] at he
  exact hef (Option.some.inj he).symm

theorem entryWithin_name {e : Entry} (h : g.entryWithin s n v = some e) :
    e.name = s.qualifiedName (g.info v.type) := by
  obtain ⟨q, _, rfl⟩ := Option.map_eq_some_iff.mp h
  rfl

/-- Two orders in which the structs that a walk came to can be enumerated lead to the same schema
or to the same error, unless two of the structs have one name. Then no order leads to a schema,
but one may report the name as defined twice and another as left without a key. -/
theorem result_of_enumeration (hs : (g.info (s.substitute root)).kind.isStruct)
    (hw : Walk.ofRoot g s n (s.substitute root) = .ok o p) (hvs : vs.Perm p.visited)
    (hws : ws.Perm p.visited) :
    let result := g.resultWithin s n (s.substitute root) o
    (g.generateWithin s n root).result = result p.visited ∧
      (result vs = result ws ∨
        ∃ v ∈ p.visited, ∃ w ∈ p.visited, ∃ name, v.type ≠ w.type ∧
          s.qualifiedName (g.info v.type) = name ∧ s.qualifiedName (g.info w.type) = name ∧
          ((result vs = .error (.assembly (.duplicateDefinition name)) ∧
              result ws = .error (.assembly (.duplicateResource (Text.lowercase name) name))) ∨
            (result vs = .error (.assembly (.duplicateResource (Text.lowercase name) name)) ∧
              result ws = .error (.assembly (.duplicateDefinition name))))) := by
  refine ⟨generateWithin_result hs hw, ?_⟩
  obtain h | ⟨e, f, hef, hn, ⟨v, hv, he⟩, ⟨w, hw', hf⟩, ⟨x, hx, hxt⟩, y, hy, hyt⟩ :=
    resultWithin_orders (g := g) (s := s) (n := n) (hvs.trans hws.symm) (s.substitute root) o
  · exact Or.inl h
  · have hv := hvs.mem_iff.mp hv
    have hw' := hvs.mem_iff.mp hw'
    rw [hx, hy]
    obtain rfl | rfl := hxt <;> obtain rfl | rfl := hyt
    · exact Or.inl rfl
    · exact Or.inr ⟨v, hv, w, hw', e.name, type_ne hw hv hw' he hf hef, (entryWithin_name he).symm,
        hn ▸ (entryWithin_name hf).symm, Or.inl ⟨rfl, rfl⟩⟩
    · exact Or.inr ⟨v, hv, w, hw', e.name, type_ne hw hv hw' he hf hef, (entryWithin_name he).symm,
        hn ▸ (entryWithin_name hf).symm, Or.inr ⟨rfl, rfl⟩⟩
    · exact Or.inl rfl

theorem shop_result_of_enumeration : ∃ o p d,
    Walk.ofRoot shop shopSettings shop.depth (.declared "Order") = .ok o p ∧
      p.visited.length = 2 ∧
      shop.resultWithin shopSettings shop.depth (.declared "Order") o p.visited.reverse =
        .ok d := by
  obtain ⟨o, p, d, hw, hlen, hd⟩ : ∃ o p d,
      Walk.ofRoot shop shopSettings shop.depth (.declared "Order") = .ok o p ∧
        p.visited.length = 2 ∧
        (shop.generate shopSettings (.declared "Order")).result = .ok d :=
    ⟨_, _, _, rfl, rfl, rfl⟩
  have hs : (shop.info (shopSettings.substitute (.declared "Order"))).kind.isStruct := rfl
  obtain ⟨hresult, horders⟩ :=
    result_of_enumeration hs hw (List.Perm.refl _) (List.reverse_perm _)
  have hd := hresult.symm.trans hd
  refine ⟨o, p, d, hw, hlen, ?_⟩
  obtain h | ⟨_, _, _, _, _, _, _, _, ⟨h, _⟩ | ⟨h, _⟩⟩ := horders
  · exact h.symm.trans hd
  · cases h.symm.trans hd
  · cases h.symm.trans hd

/-- A root with four structs. The last two have one name; `c` is a type name that is taken when
they are reached, and so is their own name, while `b_c` is free. -/
def tied : TypeGraph where
  info
    | .declared "Root" => ⟨"Root", "root", none, .struct [
        { name := "first", type := .declared "Plain" },
        { name := "second", type := .declared "Long" },
        { name := "third", type := .declared "Free" },
        { name := "fourth", type := .declared "Taken" }]⟩
    | .declared "Plain" => ⟨"c", "", none, .struct []⟩
    | .declared "Long" => ⟨"a_b_c", "", none, .struct []⟩
    | .declared "Free" => ⟨"b_c", "a", none, .struct []⟩
    | .declared "Taken" => ⟨"c", "a.b", none, .struct []⟩
    | _ => ⟨"", "", none, .any⟩
  refs := [.declared "Root", .declared "Plain", .declared "Long", .declared "Free",
    .declared "Taken"]

/-- The order of enumeration decides which error is reported. -/
theorem tied_error_depends_on_order : ∃ o p,
    Walk.ofRoot tied {} tied.depth (.declared "Root") = .ok o p ∧
      (tied.generate {} (.declared "Root")).result =
        tied.resultWithin {} tied.depth (.declared "Root") o p.visited ∧
      tied.resultWithin {} tied.depth (.declared "Root") o p.visited =
        .error (.assembly (.duplicateDefinition "a_b_c")) ∧
      tied.resultWithin {} tied.depth (.declared "Root") o p.visited.reverse =
        .error (.assembly (.duplicateResource "a_b_c" "a_b_c")) :=
  ⟨_, _, rfl, rfl, rfl, rfl⟩

end Proofs.Enumeration

end ModelSchema
