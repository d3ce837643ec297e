import Mathlib.Logic.Relation
import ModelSchema.Proofs.Reading

namespace ModelSchema

namespace TypeGraph

variable (g : TypeGraph) (s : Settings)

/-- `t` is `r` without its optional layers. -/
inductive Resolves : TypeRef → TypeRef → Prop where
  | done {r : TypeRef} (h : (g.info r).kind.isOptional = false) : Resolves r r
  | optional {r e t : TypeRef} (h : (g.info r).kind = .optional e) (ht : Resolves e t) :
      Resolves r t

/-- A field of `t` itself or of a struct that it embeds, at any depth. -/
inductive HasField : TypeRef → Field → Prop where
  | own {t : TypeRef} {f : Field} (h : f ∈ (g.info t).kind.fields) (hf : f.isInline = false) :
      HasField t f
  | embedded {t r : TypeRef} {e f : Field} (h : e ∈ (g.info t).kind.fields)
      (he : e.isInline = true) (hr : g.Resolves e.type r) (hf : HasField (s.substitute r) f) :
      HasField t f

/-- The reference `r`, substituted once at every step, leads to the struct `u` through optional
layers, elements of sequences other than bytes, and values of maps. Types that exist in Java
already lead nowhere. -/
inductive Leads : TypeRef → TypeRef → Prop where
  | struct {r : TypeRef} {fields : List Field} (hm : s.manualType? (s.substitute r) = none)
      (hk : (g.info (s.substitute r)).kind = .struct fields) : Leads r (s.substitute r)
  | optional {r e u : TypeRef} (hm : s.manualType? (s.substitute r) = none)
      (hk : (g.info (s.substitute r)).kind = .optional e) (hu : Leads e u) : Leads r u
  | seq {r e u : TypeRef} (hm : s.manualType? (s.substitute r) = none)
      (hk : (g.info (s.substitute r)).kind = .seq e) (hb : g.isByte (s.substitute e) = false)
      (hu : Leads e u) : Leads r u
  | map {r k v u : TypeRef} (hm : s.manualType? (s.substitute r) = none)
      (hk : (g.info (s.substitute r)).kind = .map k v) (hu : Leads v u) : Leads r u

/-- A field of `t` leads to `u`. -/
def Refers (t u : TypeRef) : Prop :=
  ∃ f, g.HasField s t f ∧ g.Leads s f.type u

/-- `u` is referred to by `root` or by a struct that is reachable from it. -/
def Reachable (root : TypeRef) : TypeRef → Prop :=
  Relation.TransGen (g.Refers s) root

inductive Meets (root : TypeRef) : TypeRef → Prop where
  | root : Meets root root
  | held {t r : TypeRef} (ht : Meets root t) (hr : r ∈ (g.info t).kind.refs) : Meets root r
  | substitute {t : TypeRef} (ht : Meets root t) : Meets root (s.substitute t)

end TypeGraph

namespace Proofs.Reach

open Bounds

variable (g : TypeGraph) (s : Settings)

theorem resolves_iff {n : Nat} {r t u : TypeRef} (h : g.resolveWithin n r = some t) :
    g.Resolves r u ↔ u = t := by
  induction n generalizing r with
  | zero => cases h
  | succ n ih =>
    unfold TypeGraph.resolveWithin at h
    cases hk : (g.info r).kind with
    | optional e =>
      simp only [hk] at h
      rw [← ih h]
      constructor
      · intro hr
        cases hr with
        | done hd => simp [hk, Kind.isOptional] at hd
        | optional he ht =>
          rw [hk, Kind.optional.injEq] at he
          rwa [he]
      · exact TypeGraph.Resolves.optional hk
    | primitive p | any | seq e | map k v | struct fs | enumeration vs =>
      simp only [hk, Option.some.injEq] at h
      subst h
      constructor
      · intro hr
        cases hr with
        | done _ => rfl
        | optional he _ => simp [hk] at he
      · rintro rfl
        exact TypeGraph.Resolves.done (by simp [hk, Kind.isOptional])

theorem leads_iff {n : Nat} {r u : TypeRef} {x : TypeExpr} (h : g.exprWithin s n r = some x) :
    g.Leads s r u ↔ x.target? = some u := by
  induction n generalizing r x with
  | zero => cases h
  | succ n ih =>
    unfold TypeGraph.exprWithin at h
    dsimp only at h
    constructor
    · intro hu
      cases hu with
      | struct hm hk =>
        simp only [hm, hk, Option.some.injEq] at h
        subst h
        rfl
      | optional hm hk hu =>
        simp only [hm, hk] at h
        exact (ih h).mp hu
      | seq hm hk hb hu =>
        simp only [hm, hk, hb, Bool.false_eq_true, if_false, Option.map_eq_some_iff] at h
        obtain ⟨y, hy, rfl⟩ := h
        exact (ih hy).mp hu
      | map hm hk hu =>
        simp only [hm, hk, Option.map_eq_some_iff] at h
        obtain ⟨y, hy, rfl⟩ := h
        exact (ih hy).mp hu
    · intro hu
      cases hm : s.manualType? (s.substitute r) with
      | some t =>
        simp only [hm, Option.some.injEq] at h
        subst h
        cases hu
      | none =>
        simp only [hm] at h
        cases hk : (g.info (s.substitute r)).kind with
        | optional e =>
          simp only [hk] at h
          exact .optional hm hk ((ih h).mpr hu)
        | seq e =>
          simp only [hk] at h
          cases hb : g.isByte (s.substitute e) with
          | true =>
            simp only [hb, if_true, Option.some.injEq] at h
            subst h
            cases hu
          | false =>
            simp only [hb, Bool.false_eq_true, if_false, Option.map_eq_some_iff] at h
            obtain ⟨y, hy, rfl⟩ := h
            exact .seq hm hk hb ((ih hy).mpr hu)
        | map k v =>
          simp only [hk, Option.map_eq_some_iff] at h
          obtain ⟨y, hy, rfl⟩ := h
          exact .map hm hk ((ih hy).mpr hu)
        | struct fs =>
          simp only [hk, Option.some.injEq] at h
          subst h
          cases hu
          exact .struct hm hk
        | primitive p | any | enumeration vs =>
          simp only [hk, Option.some.injEq] at h
          subst h
          cases hu

theorem hasField_iff {n : Nat} {t : TypeRef} {fields : List Field} {f : Field}
    (h : g.fieldsWithin s n t = some fields) : g.HasField s t f ↔ f ∈ fields := by
  induction n generalizing t fields with
  | zero => cases h
  | succ n ih =>
    unfold TypeGraph.fieldsWithin at h
    obtain ⟨parts, hp, h⟩ := Option.bind_eq_some_iff.mp h
    cases h
    obtain ⟨hleft, hright⟩ := mem_of_mapM hp
    rw [List.mem_flatten]
    constructor
    · intro hf
      cases hf with
      | own hm hi =>
        obtain ⟨fs, hfs, he⟩ := hleft f hm
        simp only [hi, Bool.false_eq_true, if_false, Option.some.injEq] at he
        exact ⟨fs, hfs, by simp [← he]⟩
      | embedded hm hi hr hf =>
        obtain ⟨fs, hfs, he⟩ := hleft _ hm
        simp only [hi, if_true] at he
        obtain ⟨t', ht', he⟩ := Option.bind_eq_some_iff.mp he
        obtain ⟨r', hr', rfl⟩ := Option.map_eq_some_iff.mp ht'
        rw [(resolves_iff g hr').mp hr] at hf
        exact ⟨fs, hfs, (ih he).mp hf⟩
    · rintro ⟨fs, hfs, hm⟩
      obtain ⟨e, hem, he⟩ := hright fs hfs
      cases hi : e.isInline with
      | false =>
        simp only [hi, Bool.false_eq_true, if_false, Option.some.injEq] at he
        subst he
        rw [List.mem_singleton.mp hm]
        exact .own hem hi
      | true =>
        simp only [hi, if_true] at he
        obtain ⟨t', ht', he⟩ := Option.bind_eq_some_iff.mp he
        obtain ⟨r, hr, rfl⟩ := Option.map_eq_some_iff.mp ht'
        exact .embedded hem hi ((resolves_iff g hr).mpr rfl) ((ih he).mpr hm)

theorem meets_resolveWithin {root : TypeRef} {n : Nat} {r t : TypeRef} (hr : g.Meets s root r)
    (h : g.resolveWithin n r = some t) : g.Meets s root t := by
  induction n generalizing r with
  | zero => cases h
  | succ n ih =>
    unfold TypeGraph.resolveWithin at h
    split at h
    · rename_i e hk
      exact ih (hr.held (by simp [hk, Kind.refs])) h
    · cases h
      exact hr

theorem meets_mem {root : TypeRef} {ts : List TypeRef} (hroot : root ∈ ts)
    (hheld : ∀ t ∈ ts, ∀ r ∈ (g.info t).kind.refs, r ∈ ts)
    (hsubst : ∀ t ∈ ts, s.substitute t ∈ ts) {t : TypeRef} (h : g.Meets s root t) : t ∈ ts := by
  induction h with
  | root => exact hroot
  | held _ hr ih => exact hheld _ ih _ hr
  | substitute _ ih => exact hsubst _ ih

/-- Orders and items that refer to each other. An order embeds a struct with a substituted field,
and holds items and perhaps a next order. The price of an item is of a type that exists in Java
already, and only that type refers to reports. -/
def shop : TypeGraph where
  info
    | .declared "Order" => ⟨"Order", "shop", none, .struct [
        { name := "base", type := .declared "Base", isInline := true },
        { name := "items", type := .list (.declared "Item"), isRequired := true },
        { name := "next", type := .option (.declared "Order") }]⟩
    | .declared "Base" => ⟨"Base", "shop", none, .struct [
        { name := "first", type := .declared "Legacy", isRequired := true }]⟩
    | .declared "Legacy" => ⟨"Legacy", "shop", none, .struct []⟩
    | .declared "Item" => ⟨"Item", "shop", none, .struct [
        { name := "price", type := .declared "Money" },
        { name := "orders", type := .map .sorted (.declared "text") (.declared "Order") }]⟩
    | .declared "Money" => ⟨"Money", "shop", none, .struct [
        { name := "audit", type := .declared "Report" }]⟩
    | .declared "Report" => ⟨"Report", "shop", none, .struct [
        { name := "best", type := .declared "Item" }]⟩
    | .declared "text" => ⟨"", "", none, .primitive .string⟩
    | .option e => ⟨"", "", none, .optional e⟩
    | .list e => ⟨"", "", none, .seq e⟩
    | .map _ k v => ⟨"", "", none, .map k v⟩
    | _ => ⟨"", "", none, .any⟩
  refs := [.declared "Order", .declared "Base", .declared "Legacy", .declared "Item",
    .declared "Money", .declared "Report", .declared "text"]

def shopSettings : Settings where
  substitutions := [(.declared "Legacy", .declared "Item")]
  manualTypes := [(.declared "Money", "java.math.BigDecimal")]

end Proofs.Reach

end ModelSchema
