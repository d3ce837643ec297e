import Mathlib.Data.Finset.Card
import Mathlib.Order.WellFounded
import ModelSchema.Proofs.Reach

namespace ModelSchema

namespace TypeGraph

variable (g : TypeGraph) (s : Settings)

/-- `t` is an optional layer around `e`. -/
def Wraps (t e : TypeRef) : Prop :=
  (g.info t).kind = .optional e

/-- The container `t` holds elements or values for which `u` stands. -/
def Contains (t u : TypeRef) : Prop :=
  ∃ e, s.substitute e = u ∧
    ((g.info t).kind = .optional e ∨ (g.info t).kind = .seq e ∨ ∃ k, (g.info t).kind = .map k e)

/-- An inline field of `t` embeds the struct `u`. -/
def Embeds (t u : TypeRef) : Prop :=
  ∃ f ∈ (g.info t).kind.fields, f.isInline = true ∧ (g.info u).kind.isStruct = true ∧
    ∃ r, g.Resolves f.type r ∧ s.substitute r = u

/-- A chain of `R` that starts below `root` and never ends. -/
def Endless (root : TypeRef) (R : TypeRef → TypeRef → Prop) : Prop :=
  ∃ chain : Nat → TypeRef, g.Meets s root (chain 0) ∧ ∀ n, R (chain n) (chain (n + 1))

/-- A finite part of a graph in which optional layers, containers and embedded structs come to an
end. Structs may refer to each other in cycles. -/
structure Grounded (root : TypeRef) : Prop where
  finite : ∀ t, g.Meets s root t → t ∈ g.refs
  wraps : ¬g.Endless s root g.Wraps
  contains : ¬g.Endless s root (g.Contains s)
  embeds : ¬g.Endless s root (g.Embeds s)

/-- A number for each type that falls along `R` and stays below the bound. -/
def Ranks (root : TypeRef) (R : TypeRef → TypeRef → Prop) (rank : TypeRef → Nat) : Prop :=
  ∀ t, g.Meets s root t → rank t + 1 < g.bound ∧ ∀ u, R t u → rank u < rank t

end TypeGraph

namespace Proofs.Chains

open Reach

variable {g : TypeGraph} {s : Settings} {root : TypeRef}

theorem meets_resolves {r t : TypeRef} (h : g.Resolves r t) (hr : g.Meets s root r) :
    g.Meets s root t := by
  induction h with
  | done _ => exact hr
  | optional hk _ ih => exact ih (hr.held (by simp [hk, Kind.refs]))

theorem meets_field {t : TypeRef} {f : Field} (ht : g.Meets s root t)
    (hf : f ∈ (g.info t).kind.fields) : g.Meets s root f.type := by
  apply ht.held
  cases hk : (g.info t).kind with
  | struct fs =>
    rw [hk] at hf
    exact List.mem_map_of_mem hf
  | primitive _ | any | optional _ | seq _ | map _ _ | enumeration _ => simp [hk, Kind.fields] at hf

theorem Wraps.meets {t e : TypeRef} (h : g.Wraps t e) (ht : g.Meets s root t) :
    g.Meets s root e := by
  apply ht.held
  rw [h, Kind.refs]
  exact List.mem_cons_self

theorem Contains.meets {t u : TypeRef} (h : g.Contains s t u) (ht : g.Meets s root t) :
    g.Meets s root u := by
  obtain ⟨e, rfl, hk | hk | ⟨k, hk⟩⟩ := h
  all_goals exact (ht.held (by simp [hk, Kind.refs])).substitute

theorem Embeds.meets {t u : TypeRef} (h : g.Embeds s t u) (ht : g.Meets s root t) :
    g.Meets s root u := by
  obtain ⟨f, hf, _, _, r, hr, rfl⟩ := h
  exact (meets_resolves hr (meets_field ht hf)).substitute

/-- The rank of a type is the number of types that can be reached from it along `R`. It falls since
a type that could be reached from itself would start an endless chain. -/
theorem exists_ranks {R : TypeRef → TypeRef → Prop} (hfinite : ∀ t, g.Meets s root t → t ∈ g.refs)
    (hmeets : ∀ {t u}, R t u → g.Meets s root t → g.Meets s root u)
    (hend : ¬g.Endless s root R) : ∃ rank, g.Ranks s root R rank := by
  classical
  let below (u t : TypeRef) : Prop := g.Meets s root t ∧ R t u
  have hwf : WellFounded below := by
    rw [wellFounded_iff_isEmpty_descending_chain]
    refine ⟨fun ⟨chain, hchain⟩ => hend ⟨chain, (hchain 0).1, fun n => (hchain n).2⟩⟩
  have hself : ∀ t, ¬Relation.TransGen below t t :=
    fun t h => hwf.transGen.asymmetric t t h h
  let reached (t : TypeRef) : Finset TypeRef :=
    g.refs.toFinset.filter fun u => Relation.TransGen below u t
  have hnot : ∀ t, t ∉ reached t := fun t h => hself t (Finset.mem_filter.mp h).2
  refine ⟨fun t => (reached t).card, fun t ht => ⟨?_, fun u hu => ?_⟩⟩
  · have hlt : reached t ⊂ g.refs.toFinset := by
      refine Finset.ssubset_iff_subset_ne.mpr ⟨Finset.filter_subset _ _, fun he => hnot t ?_⟩
      rw [he]
      exact List.mem_toFinset.mpr (hfinite t ht)
    have hcard := Finset.card_lt_card hlt
    have hlength := List.toFinset_card_le g.refs
    simp only [TypeGraph.bound]
    omega
  · have hstep : below u t := ⟨ht, hu⟩
    apply Finset.card_lt_card
    refine Finset.ssubset_iff_subset_ne.mpr ⟨?_, fun he => hnot u ?_⟩
    · intro w hw
      obtain ⟨hmem, hw⟩ := Finset.mem_filter.mp hw
      exact Finset.mem_filter.mpr ⟨hmem, hw.tail hstep⟩
    · rw [he]
      exact Finset.mem_filter.mpr
        ⟨List.mem_toFinset.mpr (hfinite u (hmeets hu ht)), .single hstep⟩

structure Ranking (g : TypeGraph) (s : Settings) (root : TypeRef) where
  wraps : TypeRef → Nat
  contains : TypeRef → Nat
  embeds : TypeRef → Nat
  wraps_ranks : g.Ranks s root g.Wraps wraps
  contains_ranks : g.Ranks s root (g.Contains s) contains
  embeds_ranks : g.Ranks s root (g.Embeds s) embeds

theorem exists_ranking (h : g.Grounded s root) : Nonempty (Ranking g s root) := by
  obtain ⟨wraps, hw⟩ := exists_ranks h.finite Wraps.meets h.wraps
  obtain ⟨contains, hc⟩ := exists_ranks h.finite Contains.meets h.contains
  obtain ⟨embeds, he⟩ := exists_ranks h.finite Embeds.meets h.embeds
  exact ⟨⟨wraps, contains, embeds, hw, hc, he⟩⟩

theorem not_endless_of_falls {R : TypeRef → TypeRef → Prop} (rank : TypeRef → Nat)
    (hmeets : ∀ {t u}, R t u → g.Meets s root t → g.Meets s root u)
    (hfalls : ∀ t u, g.Meets s root t → R t u → rank u < rank t) : ¬g.Endless s root R := by
  rintro ⟨chain, hzero, hchain⟩
  have hall : ∀ n, g.Meets s root (chain n) := by
    intro n
    induction n with
    | zero => exact hzero
    | succ n ih => exact hmeets (hchain n) ih
  have hsum : ∀ n, rank (chain n) + n ≤ rank (chain 0) := by
    intro n
    induction n with
    | zero => simp
    | succ n ih =>
      have hlt := hfalls _ _ (hall n) (hchain n)
      omega
  have hle := hsum (rank (chain 0) + 1)
  omega

/-- A graph can be checked to be grounded: its list of types is closed, and one number for each type
falls wherever something is followed. -/
theorem grounded_of_falls (rank : TypeRef → Nat) (hroot : root ∈ g.refs)
    (hheld : ∀ t ∈ g.refs, ∀ r ∈ (g.info t).kind.refs, r ∈ g.refs)
    (hsubst : ∀ t ∈ g.refs, s.substitute t ∈ g.refs)
    (hcontained : ∀ t ∈ g.refs, (g.info t).kind.isStruct = false → ∀ r ∈ (g.info t).kind.refs,
      rank r < rank t ∧ rank (s.substitute r) < rank t)
    (hembedded : ∀ t ∈ g.refs, ∀ f ∈ (g.info t).kind.fields, f.isInline = true →
      ∃ u ∈ g.embeddedWithin s g.bound f.type, rank u < rank t) : g.Grounded s root := by
  have hfinite : ∀ t, g.Meets s root t → t ∈ g.refs :=
    fun t => meets_mem g s hroot hheld hsubst
  refine ⟨hfinite, ?_, ?_, ?_⟩
  · apply not_endless_of_falls rank Wraps.meets
    intro t e ht hk
    have hs : (g.info t).kind.isStruct = false := by rw [hk]; rfl
    exact (hcontained t (hfinite t ht) hs e (by rw [hk]; exact List.mem_cons_self)).1
  · apply not_endless_of_falls rank Contains.meets
    rintro t u ht ⟨e, rfl, hk⟩
    have hs : (g.info t).kind.isStruct = false ∧ e ∈ (g.info t).kind.refs := by
      obtain hk | hk | ⟨key, hk⟩ := hk <;> simp [hk, Kind.isStruct, Kind.refs]
    exact (hcontained t (hfinite t ht) hs.1 e hs.2).2
  · apply not_endless_of_falls rank Embeds.meets
    rintro t u ht ⟨f, hf, hi, _, r, hr, rfl⟩
    obtain ⟨u, hu, hlt⟩ := hembedded t (hfinite t ht) f hf hi
    obtain ⟨r', hr', rfl⟩ := Option.map_eq_some_iff.mp hu
    rwa [(resolves_iff g hr').mp hr]

end Proofs.Chains

end ModelSchema
