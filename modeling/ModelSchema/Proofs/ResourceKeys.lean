import Mathlib.Data.Set.Function
import ModelSchema.Proofs.Enumeration

namespace ModelSchema

/-- The first choice of a resource key. -/
def Entry.plainKey (e : Entry) : String :=
  Text.lowercase e.typeName

/-- The second choice of a resource key. -/
def Entry.fullKey (e : Entry) : String :=
  Text.lowercase e.name

namespace Assembly

/-- Some entry that comes before `e` has the key `k`. The keys are given by the names of entries. -/
def TakenBefore (es : List Entry) (key : String → String) (e : Entry) (k : String) : Prop :=
  ∃ f ∈ es, f.name < e.name ∧ key f.name = k

instance (es : List Entry) (key : String → String) (e : Entry) (k : String) :
    Decidable (TakenBefore es key e k) :=
  inferInstanceAs (Decidable (∃ f ∈ es, f.name < e.name ∧ key f.name = k))

/-- Each entry has its first choice of a key or, if that is taken before it, its second. -/
def AssignsKeys (es : List Entry) (key : String → String) : Prop :=
  ∀ e ∈ es, key e.name = if TakenBefore es key e e.plainKey then e.fullKey else e.plainKey

/-- Both choices of a key are taken by entries that come before. -/
def Blocked (es : List Entry) (key : String → String) (e : Entry) : Prop :=
  TakenBefore es key e e.plainKey ∧ TakenBefore es key e e.fullKey

instance (es : List Entry) (key : String → String) (e : Entry) : Decidable (Blocked es key e) :=
  inferInstanceAs (Decidable (_ ∧ _))

/-- The entries are in ascending order of their names, which are all different. -/
def Ascending (es : List Entry) : Prop :=
  es.Pairwise (·.name < ·.name)

/-- The warnings for the entries that do not get their first choice, in their order. -/
def warnings (es : List Entry) (key : String → String) : List Event :=
  (es.filter fun e => TakenBefore es key e e.plainKey).map fun e =>
    .resourceNameTaken e.name e.plainKey

end Assembly

namespace Proofs.ResourceKeys

open Assembly

variable {es fs : List Entry} {e f : Entry} {key key' : String → String} {k : String}

theorem taken_perm (h : es.Perm fs) : TakenBefore es key e k ↔ TakenBefore fs key e k := by
  simp only [TakenBefore, h.mem_iff]

theorem blocked_perm (h : es.Perm fs) : Blocked es key e ↔ Blocked fs key e :=
  and_congr (taken_perm h) (taken_perm h)

theorem assignsKeys_perm (h : es.Perm fs) : AssignsKeys es key ↔ AssignsKeys fs key := by
  simp only [AssignsKeys, h.mem_iff, taken_perm h]

theorem sortEntries_ascending (h : (es.map (·.name)).Nodup) : Ascending (sortEntries es) := by
  have hnames := ((sortEntries_perm es).map (·.name)).nodup_iff.mpr h
  have hboth := (sortEntries_sorted es).and (List.pairwise_map.mp hnames)
  refine hboth.imp fun {x y} hxy => ?_
  by_contra hlt
  exact hxy.2 (String.le_antisymm hxy.1 (String.not_lt.mp hlt))

theorem eq_sortEntries (h : fs.Perm es) (hfs : Ascending fs) : fs = sortEntries es := by
  refine List.Perm.eq_of_pairwise ?_ hfs ?_ (h.trans (sortEntries_perm es).symm)
  · exact fun x y _ _ hxy hyx => absurd hyx (String.lt_asymm hxy)
  · apply sortEntries_ascending
    refine ((h.map (·.name)).nodup_iff.mp ?_)
    refine List.pairwise_map.mpr (hfs.imp fun {x y} hxy he => ?_)
    exact String.lt_irrefl _ (he ▸ hxy)

section

variable (h : Ascending (fs ++ es))
include h

theorem ascending_init : Ascending fs :=
  (List.pairwise_append.mp h).1

theorem name_lt (hf : f ∈ fs) (he : e ∈ es) : f.name < e.name :=
  (List.pairwise_append.mp h).2.2 f hf e he

theorem taken_init (hf : f ∈ fs) :
    TakenBefore (fs ++ es) key f k ↔ TakenBefore fs key f k := by
  constructor
  · rintro ⟨x, hx, hlt, hk⟩
    obtain hx | hx := List.mem_append.mp hx
    · exact ⟨x, hx, hlt, hk⟩
    · exact absurd hlt (String.lt_asymm (name_lt h hf hx))
  · rintro ⟨x, hx, hlt, hk⟩
    exact ⟨x, List.mem_append_left _ hx, hlt, hk⟩

theorem blocked_init (hf : f ∈ fs) : Blocked (fs ++ es) key f ↔ Blocked fs key f :=
  and_congr (taken_init h hf) (taken_init h hf)

theorem assignsKeys_init (hkey : AssignsKeys (fs ++ es) key) : AssignsKeys fs key := by
  intro f hf
  rw [hkey f (List.mem_append_left _ hf)]
  simp only [taken_init h hf]

end

section

variable (h : Ascending (fs ++ [e]))
include h

theorem name_ne_last (hf : f ∈ fs) : f.name ≠ e.name :=
  fun he => String.lt_irrefl _ (he ▸ name_lt h hf List.mem_cons_self)

theorem taken_last : TakenBefore (fs ++ [e]) key e k ↔ k ∈ fs.map fun f => key f.name := by
  rw [List.mem_map]
  constructor
  · rintro ⟨x, hx, hlt, hk⟩
    obtain hx | hx := List.mem_append.mp hx
    · exact ⟨x, hx, hk⟩
    · rw [List.mem_singleton.mp hx] at hlt
      exact absurd hlt (String.lt_irrefl _)
  · rintro ⟨x, hx, hk⟩
    exact ⟨x, List.mem_append_left _ hx, name_lt h hx List.mem_cons_self, hk⟩

theorem assignsKeys_append (hkey : AssignsKeys fs key) (hlast : key e.name =
    if TakenBefore (fs ++ [e]) key e e.plainKey then e.fullKey else e.plainKey) :
    AssignsKeys (fs ++ [e]) key := by
  intro f hf
  obtain hf | hf := List.mem_append.mp hf
  · rw [hkey f hf]
    simp only [taken_init h hf]
  · rw [List.mem_singleton.mp hf]
    exact hlast

theorem warnings_append : warnings (fs ++ [e]) key = warnings fs key ++
    if TakenBefore (fs ++ [e]) key e e.plainKey then [.resourceNameTaken e.name e.plainKey]
    else [] := by
  have hinit : fs.filter (fun f => TakenBefore (fs ++ [e]) key f f.plainKey) =
      fs.filter fun f => TakenBefore fs key f f.plainKey :=
    List.filter_congr fun f hf => by simp only [taken_init h hf]
  rw [warnings, List.filter_append, hinit, List.map_append, List.filter_singleton]
  split <;> simp_all [warnings]

end

theorem assignsKeys_congr (h : ∀ f ∈ fs, key' f.name = key f.name) (hkey : AssignsKeys fs key) :
    AssignsKeys fs key' := by
  intro f hf
  have htaken : TakenBefore fs key' f f.plainKey ↔ TakenBefore fs key f f.plainKey :=
    exists_congr fun x => and_congr_right fun hx => by rw [h x hx]
  rw [h f hf, hkey f hf]
  simp only [htaken]

theorem exists_assignsKeys (h : Ascending fs) : ∃ key, AssignsKeys fs key := by
  induction fs using List.reverseRecOn with
  | nil => exact ⟨id, by simp [AssignsKeys]⟩
  | append_singleton fs e ih =>
    obtain ⟨key, hkey⟩ := ih (ascending_init h)
    let last := if e.plainKey ∈ fs.map (fun f => key f.name) then e.fullKey else e.plainKey
    have hinit : ∀ f ∈ fs, Function.update key e.name last f.name = key f.name :=
      fun f hf => Function.update_of_ne (name_ne_last h hf) _ _
    have hmap : fs.map (fun f => Function.update key e.name last f.name) =
        fs.map fun f => key f.name := List.map_congr_left hinit
    refine ⟨Function.update key e.name last, assignsKeys_append h ?_ ?_⟩
    · exact assignsKeys_congr hinit hkey
    · simp only [taken_last h, hmap, Function.update_self, last]

theorem assignsKeys_unique (h : Ascending fs) (hkey : AssignsKeys fs key)
    (hkey' : AssignsKeys fs key') : ∀ f ∈ fs, key' f.name = key f.name := by
  induction fs using List.reverseRecOn with
  | nil => simp
  | append_singleton fs e ih =>
    have hagree := ih (ascending_init h) (assignsKeys_init h hkey) (assignsKeys_init h hkey')
    intro f hf
    obtain hf | hf := List.mem_append.mp hf
    · exact hagree f hf
    · have hmap : fs.map (fun f => key' f.name) = fs.map fun f => key f.name :=
        List.map_congr_left hagree
      rw [List.mem_singleton.mp hf, hkey e (by simp), hkey' e (by simp)]
      simp only [taken_last h, hmap]

structure Keyed (key : String → String) (a : Assembly) (fs : List Entry) : Prop where
  definitions : a.definitions.Perm (fs.map fun e => (e.name, e.definition))
  resources : a.resources.Perm (fs.map fun e => (key e.name, e.definition))
  distinct : (fs.map fun e => key e.name).Nodup
  log : a.log = warnings fs key

theorem resourceKey_eq (a : Assembly) (e : Entry) : a.resourceKey e =
    if Assembly.holds a.resources e.plainKey then (e.fullKey, true) else (e.plainKey, false) :=
  rfl

theorem insertSorted_perm_append {α : Type} {es xs : Entries α} {key : String} (value : α)
    (h : es.Perm xs) (hkey : key ∉ es.keys) :
    (Entries.insertSorted es key value).Perm (xs ++ [(key, value)]) :=
  (Entries.insertSorted_perm value hkey).trans
    ((h.cons _).trans (List.perm_append_singleton _ _).symm)

namespace Keyed

variable {a : Assembly}

theorem definition_keys (h : Keyed key a fs) : a.definitions.keys.Perm (fs.map (·.name)) := by
  have hp := h.definitions.map Prod.fst
  rwa [List.map_map] at hp

theorem resource_keys (h : Keyed key a fs) :
    a.resources.keys.Perm (fs.map fun e => key e.name) := by
  have hp := h.resources.map Prod.fst
  rwa [List.map_map] at hp

section

variable (h : Keyed key a fs) (hasc : Ascending (fs ++ [e]))
include h hasc

theorem name_not_mem : e.name ∉ a.definitions.keys := by
  intro hm
  obtain ⟨f, hf, hname⟩ := List.mem_map.mp (h.definition_keys.mem_iff.mp hm)
  exact name_ne_last hasc hf hname

theorem holds_iff : Assembly.holds a.resources k ↔ TakenBefore (fs ++ [e]) key e k := by
  rw [Assembly.holds_iff, h.resource_keys.mem_iff, taken_last hasc]

theorem resourceKey_assigned (hkey : AssignsKeys (fs ++ [e]) key) : a.resourceKey e =
    (key e.name, decide (TakenBefore (fs ++ [e]) key e e.plainKey)) := by
  have hholds := h.holds_iff (k := e.plainKey) hasc
  rw [hkey e (by simp), resourceKey_eq]
  by_cases htaken : TakenBefore (fs ++ [e]) key e e.plainKey
  · simp [hholds.mpr htaken, htaken]
  · simp [mt hholds.mp htaken, htaken]

theorem error?_of_blocked (hkey : AssignsKeys (fs ++ [e]) key)
    (hblocked : Blocked (fs ++ [e]) key e) :
    a.error? e = some (.duplicateResource e.fullKey e.name) := by
  have hlast := hkey e (by simp)
  rw [if_pos hblocked.1] at hlast
  have hname : ¬Assembly.holds a.definitions e.name :=
    mt (Assembly.holds_iff _ _).mp (h.name_not_mem hasc)
  have hfull := (h.holds_iff hasc).mpr hblocked.2
  rw [Assembly.error?, if_neg hname, h.resourceKey_assigned hasc hkey, hlast]
  exact if_pos hfull

theorem step (hkey : AssignsKeys (fs ++ [e]) key) (hfree : ¬Blocked (fs ++ [e]) key e) :
    a.error? e = none ∧ Keyed key (a.add e) (fs ++ [e]) := by
  have hresource := h.resourceKey_assigned hasc hkey
  have hlast := hkey e (by simp)
  have hnew : ¬TakenBefore (fs ++ [e]) key e (key e.name) := by
    rw [hlast]
    split
    · rename_i hplain
      exact fun hfull => hfree ⟨hplain, hfull⟩
    · assumption
  have hname := h.name_not_mem hasc
  have hheld : key e.name ∉ a.resources.keys := by
    rwa [h.resource_keys.mem_iff, ← taken_last hasc]
  refine ⟨?_, ?_, ?_, ?_, ?_⟩
  · have hname' := mt (Assembly.holds_iff _ _).mp hname
    have hheld' := mt (Assembly.holds_iff _ _).mp hheld
    rw [Assembly.error?, if_neg hname', hresource]
    exact if_neg hheld'
  · rw [List.map_append]
    exact insertSorted_perm_append e.definition h.definitions hname
  · rw [List.map_append, Assembly.add, hresource]
    exact insertSorted_perm_append e.definition h.resources hheld
  · rw [List.map_append, List.nodup_append']
    refine ⟨h.distinct, List.nodup_singleton _, List.disjoint_singleton.mpr ?_⟩
    rwa [← h.resource_keys.mem_iff]
  · rw [warnings_append hasc, ← h.log]
    show (a.note e).log = _
    rw [Assembly.note, hresource]
    by_cases htaken : TakenBefore (fs ++ [e]) key e e.plainKey
    · simp only [htaken, decide_true, if_true]
      rfl
    · simp [htaken]

end

end Keyed

theorem addAll_append {a b : Assembly} (h : a.addAll es = (b, none)) :
    a.addAll (es ++ fs) = b.addAll fs := by
  induction es generalizing a with
  | nil =>
    cases h
    rfl
  | cons e es ih =>
    obtain ⟨hnone, h⟩ := Assembly.addAll_cons_ok h
    rw [List.cons_append, Assembly.addAll_of_none hnone, ih h]

theorem addAll_keyed (h : Ascending fs) (hkey : AssignsKeys fs key)
    (hfree : ∀ e ∈ fs, ¬Blocked fs key e) :
    ∃ a, Assembly.addAll {} fs = (a, none) ∧ Keyed key a fs := by
  -- By induction on the entries, the last one at a time: as long as none is blocked, each is taken
  -- in under its key.
  induction fs using List.reverseRecOn with
  | nil => exact ⟨{}, rfl, List.Perm.refl _, List.Perm.refl _, List.nodup_nil, rfl⟩
  | append_singleton fs e ih =>
    obtain ⟨a, ha, hkeyed⟩ := ih (ascending_init h) (assignsKeys_init h hkey)
      fun f hf => mt (blocked_init h hf).mpr (hfree f (List.mem_append_left _ hf))
    obtain ⟨hnone, hadd⟩ := hkeyed.step h hkey (hfree e (by simp))
    refine ⟨a.add e, ?_, hadd⟩
    rw [addAll_append ha, Assembly.addAll_of_none hnone]
    rfl

theorem addAll_error (h : Ascending fs) (hkey : AssignsKeys fs key) :
    (Assembly.addAll {} fs).2 = (fs.find? fun e => Blocked fs key e).map fun e =>
      .duplicateResource e.fullKey e.name := by
  cases hfind : fs.find? fun e => Blocked fs key e with
  | none =>
    have hfree : ∀ e ∈ fs, ¬Blocked fs key e := by simpa using hfind
    obtain ⟨a, ha, _⟩ := addAll_keyed h hkey hfree
    rw [ha]
    rfl
  | some e =>
    obtain ⟨hblocked, before, after, rfl, hbefore⟩ := List.find?_eq_some_iff_append.mp hfind
    simp only [decide_eq_true_eq, Bool.not_eq_true', decide_eq_false_iff_not] at hblocked hbefore
    have hsplit : before ++ e :: after = (before ++ [e]) ++ after := by simp
    rw [hsplit] at h hkey hblocked
    have hinit := ascending_init h
    have hfree : ∀ f ∈ before, ¬Blocked before key f := by
      intro f hf hblocked
      refine hbefore f hf ?_
      rwa [hsplit, blocked_init h (List.mem_append_left _ hf), blocked_init hinit hf]
    obtain ⟨a, ha, hkeyed⟩ := addAll_keyed (ascending_init hinit)
      (assignsKeys_init hinit (assignsKeys_init h hkey)) hfree
    rw [addAll_append ha]
    apply Assembly.addAll_of_error
    exact hkeyed.error?_of_blocked hinit (assignsKeys_init h hkey)
      ((blocked_init h (by simp)).mp hblocked)

theorem addAll_keeps (a : Assembly) (es : List Entry) :
    a.definitions ⊆ (a.addAll es).1.definitions ∧ a.resources ⊆ (a.addAll es).1.resources := by
  induction es generalizing a with
  | nil => exact ⟨List.Subset.refl _, List.Subset.refl _⟩
  | cons e es ih =>
    cases he : a.error? e with
    | some x =>
      have hnote : (a.note e).definitions = a.definitions ∧ (a.note e).resources = a.resources := by
        unfold Assembly.note
        split <;> exact ⟨rfl, rfl⟩
      unfold Assembly.addAll
      rw [he]
      cases x with
      | duplicateDefinition _ => exact ⟨List.Subset.refl _, List.Subset.refl _⟩
      | duplicateResource _ _ =>
        show a.definitions ⊆ (a.note e).definitions ∧ a.resources ⊆ (a.note e).resources
        rw [hnote.1, hnote.2]
        exact ⟨List.Subset.refl _, List.Subset.refl _⟩
    | none =>
      obtain ⟨hname, hkey⟩ := Assembly.error?_eq_none he
      rw [Assembly.addAll_of_none he]
      obtain ⟨hdefinitions, hresources⟩ := ih (a.add e)
      refine ⟨fun x hx => hdefinitions ?_, fun x hx => hresources ?_⟩
      · exact (Entries.insertSorted_perm _ hname).mem_iff.mpr (List.mem_cons_of_mem _ hx)
      · exact (Entries.insertSorted_perm _ hkey).mem_iff.mpr (List.mem_cons_of_mem _ hx)

/-- An assembly without errors: definitions and resources correspond one to one. -/
structure Corresponds (es : List Entry) (key : String → String) (a : Assembly) : Prop where
  definition_keys : a.definitions.keys.Nodup
  resource_keys : a.resources.keys.Nodup
  definition : ∀ name p, Entries.get? a.definitions name = some p ↔
    ∃ e ∈ es, e.name = name ∧ e.definition = p
  bijection : Set.BijOn key {name | name ∈ a.definitions.keys} {k | k ∈ a.resources.keys}
  resource : ∀ name ∈ a.definitions.keys,
    Entries.get? a.resources (key name) = Entries.get? a.definitions name

theorem Keyed.corresponds {a : Assembly} (h : Keyed key a es)
    (hn : (es.map (·.name)).Nodup) : Corresponds es key a := by
  have hdefinitions := h.definition_keys.nodup_iff.mpr hn
  have hresources := h.resource_keys.nodup_iff.mpr h.distinct
  have hget : ∀ name p, Entries.get? a.definitions name = some p ↔
      ∃ e ∈ es, e.name = name ∧ e.definition = p := by
    intro name p
    rw [Entries.get?_eq_some_iff hdefinitions, h.definitions.mem_iff, List.mem_map]
    simp only [Prod.mk.injEq]
  have hmem : ∀ name, name ∈ a.definitions.keys ↔ ∃ e ∈ es, e.name = name := by
    intro name
    rw [h.definition_keys.mem_iff, List.mem_map]
  refine ⟨hdefinitions, hresources, hget, ⟨?_, ?_, ?_⟩, ?_⟩
  · intro name hname
    obtain ⟨e, he, rfl⟩ := (hmem name).mp hname
    exact h.resource_keys.mem_iff.mpr (List.mem_map.mpr ⟨e, he, rfl⟩)
  · intro name hname other hother hkey
    obtain ⟨e, he, rfl⟩ := (hmem name).mp hname
    obtain ⟨f, hf, rfl⟩ := (hmem other).mp hother
    rw [List.inj_on_of_nodup_map h.distinct he hf hkey]
  · intro k hk
    obtain ⟨e, he, rfl⟩ := List.mem_map.mp (h.resource_keys.mem_iff.mp hk)
    exact ⟨e.name, (hmem _).mpr ⟨e, he, rfl⟩, rfl⟩
  · intro name hname
    obtain ⟨e, he, rfl⟩ := (hmem name).mp hname
    rw [(hget e.name e.definition).mpr ⟨e, he, rfl, rfl⟩, Entries.get?_eq_some_iff hresources,
      h.resources.mem_iff]
    exact List.mem_map.mpr ⟨e, he, rfl⟩

theorem find?_blocked_iff (h : Ascending fs) : (fs.find? fun e => Blocked fs key e) = some e ↔
    e ∈ fs ∧ Blocked fs key e ∧ ∀ f ∈ fs, Blocked fs key f → e.name ≤ f.name := by
  rw [List.find?_eq_some_iff_append]
  simp only [decide_eq_true_eq, Bool.not_eq_true', decide_eq_false_iff_not]
  constructor
  · rintro ⟨hblocked, before, after, rfl, hbefore⟩
    refine ⟨by simp, hblocked, fun f hf hf' => ?_⟩
    obtain hf | hf := List.mem_append.mp hf
    · exact absurd hf' (hbefore f hf)
    · obtain rfl | hf := List.mem_cons.mp hf
      · exact String.le_refl _
      · have hlt := (List.pairwise_cons.mp (List.pairwise_append.mp h).2.1).1 f hf
        exact String.not_lt.mp (String.lt_asymm hlt)
  · rintro ⟨hmem, hblocked, hleast⟩
    obtain ⟨before, after, rfl⟩ := List.append_of_mem hmem
    refine ⟨hblocked, before, after, rfl, fun f hf hf' => ?_⟩
    exact String.not_lt.mpr (hleast f (List.mem_append_left _ hf) hf')
      (name_lt h hf List.mem_cons_self)

/-- Definitions with different names get their resource keys in ascending order of the names, each
its plain key or, where one before has that, its full key; there is one way to do so. The assembly
succeeds if and only if no definition has both keys taken before it, and otherwise reports the first
that has. If it succeeds, definitions and resources correspond one to one with equal values, and
there is a warning for each full key. Nothing that was put into the assembly is ever replaced. -/
theorem assemble_keys (hn : (es.map (·.name)).Nodup) : ∃ key, AssignsKeys es key ∧
    (∀ key', AssignsKeys es key' → ∀ e ∈ es, key' e.name = key e.name) ∧
    ((assemble es).2 = none ↔ ∀ e ∈ es, ¬Blocked es key e) ∧
    (∀ x, (assemble es).2 = some x ↔ ∃ e ∈ es, Blocked es key e ∧
      (∀ f ∈ es, Blocked es key f → e.name ≤ f.name) ∧
      x = .duplicateResource (Text.lowercase e.name) e.name) ∧
    (∀ a, assemble es = (a, none) → Corresponds es key a ∧
      ∀ fs, fs.Perm es → Ascending fs → a.log = warnings fs key) ∧
    ∀ before after a, (before ++ after).Perm es → Ascending (before ++ after) →
      Assembly.addAll {} before = (a, none) →
      a.definitions ⊆ (assemble es).1.definitions ∧ a.resources ⊆ (assemble es).1.resources := by
  have hasc := sortEntries_ascending hn
  have hp := sortEntries_perm es
  obtain ⟨key, hkey⟩ := exists_assignsKeys hasc
  have herror := addAll_error hasc hkey
  have hnone : (assemble es).2 = none ↔ ∀ e ∈ es, ¬Blocked es key e := by
    rw [assemble, herror, Option.map_eq_none_iff, List.find?_eq_none]
    simp only [decide_eq_true_eq, hp.mem_iff, blocked_perm hp]
  refine ⟨key, (assignsKeys_perm hp).mp hkey, ?_, hnone, ?_, ?_, ?_⟩
  · intro key' hkey' e he
    exact assignsKeys_unique hasc hkey ((assignsKeys_perm hp).mpr hkey') e (hp.mem_iff.mpr he)
  · intro x
    rw [assemble, herror, Option.map_eq_some_iff]
    refine exists_congr fun e => ?_
    rw [find?_blocked_iff hasc, eq_comm (a := x)]
    simp only [hp.mem_iff, blocked_perm hp, and_assoc]
    rfl
  · intro a ha
    have hfree := hnone.mp (by rw [ha])
    obtain ⟨b, hb, hkeyed⟩ := addAll_keyed hasc hkey fun e he =>
      mt (blocked_perm hp).mp (hfree e (hp.mem_iff.mp he))
    cases ha.symm.trans hb
    refine ⟨?_, fun fs hfs hfsasc => ?_⟩
    · have hnames := (hp.map (·.name)).nodup_iff.mpr hn
      exact { hkeyed.corresponds hnames with
        definition := fun name p => by
          rw [(hkeyed.corresponds hnames).definition]
          simp only [hp.mem_iff] }
    · rw [eq_sortEntries hfs hfsasc]
      exact hkeyed.log
  · intro before after a hsplit hsplitasc ha
    rw [assemble, ← eq_sortEntries hsplit hsplitasc, addAll_append ha]
    exact addAll_keeps a after

/-- Two things called `Thing`, and one whose plain key is the full key of the second. -/
def things : List Entry :=
  [⟨"c_b_Thing", "b_Thing", {}⟩, ⟨"b_Thing", "Thing", {}⟩, ⟨"a_Thing", "Thing", {}⟩]

theorem things_keys : (things.map (·.name)).Nodup ∧ ∃ key a, AssignsKeys things key ∧
    assemble things = (a, none) ∧ Corresponds things key a ∧
    a.resources.keys = ["b_thing", "c_b_thing", "thing"] ∧
    a.log = warnings things.reverse key := by
  have hn : (things.map (·.name)).Nodup := by decide
  obtain ⟨key, hkey, _, _, _, hok, _⟩ := assemble_keys hn
  obtain ⟨a, ha, hkeys⟩ : ∃ a, assemble things = (a, none) ∧
      a.resources.keys = ["b_thing", "c_b_thing", "thing"] := ⟨_, rfl, rfl⟩
  obtain ⟨hcorresponds, hlog⟩ := hok a ha
  have hasc : Ascending things.reverse := by
    unfold Ascending
    decide
  exact ⟨hn, key, a, hkey, ha, hcorresponds, hkeys, hlog _ (List.reverse_perm _) hasc⟩

end Proofs.ResourceKeys

end ModelSchema
