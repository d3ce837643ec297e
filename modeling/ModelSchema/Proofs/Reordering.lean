import ModelSchema.Proofs.Faults

namespace ModelSchema

/-- Structs with the same fields in perhaps another order, or kinds that are equal. -/
inductive Kind.Reorders : Kind → Kind → Prop where
  | struct {fs fs' : List Field} (h : fs.Perm fs') : Reorders (.struct fs) (.struct fs')
  | same (k : Kind) : Reorders k k

namespace Kind.Reorders

variable {k k' : Kind}

theorem symm (h : Reorders k k') : Reorders k' k := by
  cases h with
  | struct h => exact .struct h.symm
  | same => exact .same k

theorem mem_fields (h : Reorders k k') {f : Field} (hf : f ∈ k.fields) : f ∈ k'.fields := by
  cases h with
  | struct h => exact h.mem_iff.mp hf
  | same => exact hf

theorem mem_refs (h : Reorders k k') {r : TypeRef} (hr : r ∈ k.refs) : r ∈ k'.refs := by
  cases h with
  | struct h => exact (h.map _).mem_iff.mp hr
  | same => exact hr

theorem eq_or_struct (h : Reorders k k') :
    k' = k ∨ (∃ fs, k = .struct fs) ∧ ∃ fs, k' = .struct fs := by
  cases h with
  | struct _ => exact Or.inr ⟨⟨_, rfl⟩, _, rfl⟩
  | same => exact Or.inl rfl

theorem isStruct_eq (h : Reorders k k') : k'.isStruct = k.isStruct := by
  cases h <;> rfl

end Kind.Reorders

/-- `g'` is `g` with the fields of each struct in perhaps another order. -/
structure TypeGraph.Reorders (g g' : TypeGraph) : Prop where
  refs : g'.refs = g.refs
  info : ∀ t, g'.info t = { g.info t with kind := (g'.info t).kind }
  kind : ∀ t, (g.info t).kind.Reorders (g'.info t).kind

namespace TypeGraph.Reorders

variable {g g' : TypeGraph} {s : Settings}

theorem symm (h : g.Reorders g') : g'.Reorders g where
  refs := h.refs.symm
  info := by
    intro t
    rw [h.info t]
  kind := fun t => (h.kind t).symm

theorem resembles (h : g.Reorders g') : g.Resembles g' where
  info := h.info
  kind := fun t => (h.kind t).eq_or_struct

theorem mem_fields (h : g.Reorders g') {t : TypeRef} {f : Field}
    (hf : f ∈ (g.info t).kind.fields) : f ∈ (g'.info t).kind.fields :=
  (h.kind t).mem_fields hf

theorem struct_eq (h : g.Reorders g') {t : TypeRef} {fs : List Field}
    (hk : (g.info t).kind = .struct fs) : ∃ fs', (g'.info t).kind = .struct fs' := by
  have hs : (g'.info t).kind.isStruct = true := by
    rw [(h.kind t).isStruct_eq, hk]
    rfl
  cases hk' : (g'.info t).kind with
  | struct fs' => exact ⟨fs', rfl⟩
  | primitive _ | any | optional _ | seq _ | map _ _ | enumeration _ => simp [hk', Kind.isStruct] at hs

theorem hasField (h : g.Reorders g') {t : TypeRef} {f : Field} (hf : g.HasField s t f) :
    g'.HasField s t f := by
  induction hf with
  | own hf hi => exact .own (h.mem_fields hf) hi
  | embedded hf hi hr _ ih => exact .embedded (h.mem_fields hf) hi (h.resembles.resolves hr) ih

theorem leads (h : g.Reorders g') {r u : TypeRef} (hu : g.Leads s r u) : g'.Leads s r u := by
  induction hu with
  | struct hm hk =>
    obtain ⟨fs', hk'⟩ := h.struct_eq hk
    exact .struct hm hk'
  | optional hm hk _ ih => exact .optional hm (h.resembles.kind_eq hk rfl) ih
  | seq hm hk hb _ ih =>
    exact .seq hm (h.resembles.kind_eq hk rfl) (by rw [h.resembles.isByte_eq, hb]) ih
  | map hm hk _ ih => exact .map hm (h.resembles.kind_eq hk rfl) ih

theorem refers (h : g.Reorders g') {t u : TypeRef} (hu : g.Refers s t u) : g'.Refers s t u := by
  obtain ⟨f, hf, hu⟩ := hu
  exact ⟨f, h.hasField hf, h.leads hu⟩

theorem reachable (h : g.Reorders g') {t u : TypeRef} (hu : g.Reachable s t u) :
    g'.Reachable s t u :=
  Relation.TransGen.mono (fun _ _ => h.refers) t u hu

theorem hasKey (h : g.Reorders g') {r key : TypeRef} (hkey : g.HasKey s r key) :
    g'.HasKey s r key := by
  induction hkey with
  | key hm hk hr => exact .key hm (h.resembles.kind_eq hk rfl) (h.resembles.resolves hr)
  | value hm hk _ ih => exact .value hm (h.resembles.kind_eq hk rfl) ih
  | optional hm hk _ ih => exact .optional hm (h.resembles.kind_eq hk rfl) ih
  | seq hm hk hb _ ih =>
    exact .seq hm (h.resembles.kind_eq hk rfl) (by rw [h.resembles.isByte_eq, hb]) ih

theorem fieldFault (h : g.Reorders g') {owner : TypeRef} {f : Field} {e : WalkError}
    (he : g.FieldFault s owner f e) : g'.FieldFault s owner f e := by
  induction he with
  | inline hi hr hs =>
    rw [← h.resembles.displayName_eq, ← h.resembles.displayName_eq]
    exact .inline hi (h.resembles.resolves hr) (by rw [(h.kind _).isStruct_eq, hs])
  | key hi hkey =>
    obtain ⟨key, hkey, hnot, rfl⟩ := hkey
    rw [← h.resembles.displayName_eq, ← h.resembles.displayName_eq]
    exact .key hi ⟨key, h.hasKey hkey, by rw [h.resembles.isKey_eq, hnot], rfl⟩
  | embedded hi hr hf _ ih => exact .embedded hi (h.resembles.resolves hr) (h.mem_fields hf) ih

theorem fault (h : g.Reorders g') {t : TypeRef} {e : WalkError} (he : g.Fault s t e) :
    g'.Fault s t e := by
  obtain ⟨f, hf, he⟩ := he
  exact ⟨f, h.mem_fields hf, h.fieldFault he⟩

theorem faultFrom (h : g.Reorders g') {t : TypeRef} {e : WalkError} (he : g.FaultFrom s t e) :
    g'.FaultFrom s t e := by
  obtain he | ⟨u, hu, he⟩ := he
  · exact Or.inl (h.fault he)
  · exact Or.inr ⟨u, h.reachable hu, h.fault he⟩

theorem meets (h : g.Reorders g') {root t : TypeRef} (ht : g.Meets s root t) :
    g'.Meets s root t := by
  induction ht with
  | root => exact .root
  | held _ hr ih => exact ih.held ((h.kind _).mem_refs hr)
  | substitute _ ih => exact ih.substitute

theorem embeds (h : g.Reorders g') {t u : TypeRef} (hu : g.Embeds s t u) : g'.Embeds s t u := by
  obtain ⟨f, hf, hi, hs, r, hr, rfl⟩ := hu
  exact ⟨f, h.mem_fields hf, hi, by rw [(h.kind _).isStruct_eq, hs], r, h.resembles.resolves hr, rfl⟩

theorem endless (h : g.Reorders g') {root : TypeRef} {R R' : TypeRef → TypeRef → Prop}
    (hR : ∀ {t u}, R t u → R' t u) (hend : g.Endless s root R) : g'.Endless s root R' := by
  obtain ⟨chain, hroot, hchain⟩ := hend
  exact ⟨chain, h.meets hroot, fun n => hR (hchain n)⟩

theorem grounded (h : g.Reorders g') {root : TypeRef} (hg : g.Grounded s root) :
    g'.Grounded s root where
  finite := by
    intro t ht
    rw [h.refs]
    exact hg.finite t (h.symm.meets ht)
  wraps := fun hend => hg.wraps (h.symm.endless (fun hk => h.symm.resembles.kind_eq hk rfl) hend)
  contains := fun hend => hg.contains (h.symm.endless h.symm.resembles.contains hend)
  embeds := fun hend => hg.embeds (h.symm.endless h.symm.embeds hend)

end TypeGraph.Reorders

def WalkError.isFault : WalkError → Bool
  | .unsupportedMapKey _ _ => true
  | .inlineNotStruct _ _ _ => true
  | .endless => false

/-- The types are rejected for an inline field that is no struct, or for the keys of a map. -/
def Outcome.Rejects (o : Outcome) : Prop :=
  ∃ e : WalkError, e.isFault = true ∧ o.result = .error (.walk e)

namespace Proofs.Reordering

variable {g : TypeGraph} {s : Settings} {root : TypeRef}

theorem generate_fault (h : g.Grounded s root) {e : WalkError}
    (he : (g.generate s root).result = .error (.walk e)) :
    e ≠ .endless ∧ g.FaultFrom s (s.substitute root) e := by
  have hend : e ≠ .endless := by
    rintro rfl
    exact Termination.generateWithin_ends h (Nat.le_refl _) he
  exact ⟨hend, Faults.generateWithin_fails hend he⟩

theorem generate_rejects (h : g.Grounded s root)
    (hs : (g.info (s.substitute root)).kind.isStruct = true) {e : WalkError}
    (he : g.FaultFrom s (s.substitute root) e) : (g.generate s root).Rejects := by
  have hend := Termination.generateWithin_ends h (Nat.le_refl _)
  obtain ⟨e', hend', hresult⟩ := Faults.generateWithin_rejects hs hend he
  refine ⟨e', ?_, hresult⟩
  cases e' with
  | endless => exact absurd rfl hend'
  | unsupportedMapKey _ _ | inlineNotStruct _ _ _ => rfl

theorem rejects_iff (h : g.Grounded s root)
    (hs : (g.info (s.substitute root)).kind.isStruct = true) :
    (g.generate s root).Rejects ↔ ∃ e, g.FaultFrom s (s.substitute root) e :=
  ⟨fun ⟨e, _, he⟩ => ⟨e, (generate_fault h he).2⟩, fun ⟨_, he⟩ => generate_rejects h hs he⟩

theorem faultFrom_iff {t : TypeRef} {e : WalkError} :
    g.FaultFrom s t e ↔ ∃ u, (u = t ∨ g.Reachable s t u) ∧ g.Fault s u e := by
  constructor
  · rintro (he | ⟨u, hu, he⟩)
    · exact ⟨t, Or.inl rfl, he⟩
    · exact ⟨u, Or.inr hu, he⟩
  · rintro ⟨u, rfl | hu, he⟩
    · exact Or.inl he
    · exact Or.inr ⟨u, hu, he⟩

/-- Types are rejected if and only if the root, or a struct that is reachable from it, has a fault:
among its own fields or those of the structs that it embeds, an inline field that is no struct, or a
map with keys that are neither text nor an enumeration. The reported error is such a fault. With the
fields of the structs in another order the same types are rejected. -/
theorem generate_rejects_iff (h : g.Grounded s root)
    (hs : (g.info (s.substitute root)).kind.isStruct = true) :
    ((g.generate s root).Rejects ↔ ∃ t e,
      (t = s.substitute root ∨ g.Reachable s (s.substitute root) t) ∧ g.Fault s t e) ∧
    (∀ e, (g.generate s root).result = .error (.walk e) → ∃ t,
      (t = s.substitute root ∨ g.Reachable s (s.substitute root) t) ∧ g.Fault s t e) ∧
    ∀ g', g.Reorders g' → ((g'.generate s root).Rejects ↔ (g.generate s root).Rejects) := by
  refine ⟨?_, fun e he => ?_, fun g' hg => ?_⟩
  · rw [rejects_iff h hs, exists_comm]
    exact exists_congr fun e => faultFrom_iff
  · exact faultFrom_iff.mp (generate_fault h he).2
  · have hs' : (g'.info (s.substitute root)).kind.isStruct = true := by
      rw [(hg.kind _).isStruct_eq, hs]
    rw [rejects_iff h hs, rejects_iff (hg.grounded h) hs']
    exact exists_congr fun e => ⟨hg.symm.faultFrom, hg.faultFrom⟩

def stored : Field :=
  { name := "parts", type := .list (.map .sorted (.declared "text") (.declared "Part")) }

def depot (part : List Field) : TypeGraph where
  info
    | .declared "Depot" => ⟨"Depot", "depot", none, .struct [
        { name := "shelf", type := .declared "Shelf", isInline := true },
        { name := "next", type := .option (.declared "Depot") }]⟩
    | .declared "Shelf" => ⟨"Shelf", "depot", none, .struct [stored]⟩
    | .declared "Part" => ⟨"Part", "depot", none, .struct part⟩
    | .declared "text" => ⟨"", "", none, .primitive .string⟩
    | .declared "number" => ⟨"", "", none, .primitive .int32⟩
    | .option e => ⟨"", "", none, .optional e⟩
    | .list e => ⟨"", "", none, .seq e⟩
    | .map _ k v => ⟨"", "", none, .map k v⟩
    | _ => ⟨"", "", none, .any⟩
  refs := [.declared "Depot", .declared "Shelf", .declared "Part", .declared "text",
    .declared "number", .declared "code", .option (.declared "Depot"), .option (.declared "number"),
    .map .sorted (.declared "text") (.declared "Part"),
    .list (.map .sorted (.declared "text") (.declared "Part")),
    .map .sorted (.declared "code") (.declared "text")]

/-- Codes are numbers that may be missing. -/
def depotSettings : Settings where
  substitutions := [(.declared "code", .option (.declared "number"))]

def counts : Field :=
  { name := "counts", type := .map .sorted (.declared "code") (.declared "text") }

def note : Field :=
  { name := "note", type := .declared "text", isInline := true }

def depotRank : TypeRef → Nat
  | .declared "Depot" => 1
  | .declared "Part" => 1
  | .option e => depotRank e + 2
  | .list e => depotRank e + 1
  | .map _ k v => depotRank k + depotRank v + 3
  | _ => 0

theorem depot_reorders : (depot [counts, note]).Reorders (depot [note, counts]) where
  refs := rfl
  info := by
    intro t
    simp only [depot]
    split <;> rfl
  kind := by
    intro t
    simp only [depot]
    split
    case h_3 => exact .struct (List.Perm.swap _ _ _)
    all_goals exact .same _

theorem depot_grounded : (depot [counts, note]).Grounded depotSettings (.declared "Depot") :=
  Chains.grounded_of_falls depotRank (by decide) (by decide) (by decide) (by decide) (by decide)

theorem depot_refers_part :
    (depot [counts, note]).Refers depotSettings (.declared "Depot") (.declared "Part") := by
  refine ⟨stored, ?_, ?_⟩
  · exact .embedded (r := .declared "Shelf") List.mem_cons_self rfl (.done rfl)
      (.own List.mem_cons_self rfl)
  · exact .seq rfl rfl rfl (.map rfl rfl (.struct (r := .declared "Part") rfl rfl))

theorem depot_part_fault : (depot [counts, note]).Fault depotSettings (.declared "Part")
    (.unsupportedMapKey "depot.Part" "int32") := by
  refine ⟨counts, List.mem_cons_self, .key rfl ⟨.declared "number", ?_, rfl, rfl⟩⟩
  exact .key rfl rfl (.optional (e := .declared "number") rfl (.done rfl))

theorem depot_generate_rejects :
    (depot [counts, note]).Grounded depotSettings (.declared "Depot") ∧
    ((depot [counts, note]).generate depotSettings (.declared "Depot")).Rejects ∧
    ((depot [note, counts]).generate depotSettings (.declared "Depot")).Rejects ∧
    ((depot [counts, note]).generate depotSettings (.declared "Depot")).result =
      .error (.walk (.unsupportedMapKey "depot.Part" "int32")) ∧
    ((depot [note, counts]).generate depotSettings (.declared "Depot")).result =
      .error (.walk (.inlineNotStruct "depot.Part" "note" "string")) := by
  obtain ⟨hiff, _, horder⟩ := generate_rejects_iff depot_grounded rfl
  have hrejects := hiff.mpr ⟨.declared "Part", _, Or.inr (.single depot_refers_part), depot_part_fault⟩
  exact ⟨depot_grounded, hrejects, (horder _ depot_reorders).mpr hrejects, by rfl, by rfl⟩

end Proofs.Reordering

end ModelSchema
