import ModelSchema.Proofs.Renames
import ModelSchema.Source.Description

namespace ModelSchema

namespace Source

/-- Some option of the attributes has this key. -/
def Carries (key : String) (as : List Attribute) : Prop :=
  ∃ p ∈ as.flatMap attributeParts, (p.behind? key).isSome

instance (key : String) (as : List Attribute) : Decidable (Carries key as) :=
  inferInstanceAs (Decidable (∃ p ∈ _, _))

def hintItems (a : Attribute) : List ListItem :=
  match a.argument with
  | .list inner => if a.path.isWord hintsAttribute then (listItems inner).toOption.getD [] else []
  | _ => []

/-- A hint holds if nothing is said about it, or that it is true. -/
def Argument.affirms : Argument → Bool
  | .none => true
  | .value e =>
    match e.form with
    | .truth b => b
    | .literal (.string s) => s == "true"
    | _ => false
  | .list _ => false

/-- A hint of the attributes says that the field is required. -/
def HintsRequired (as : List Attribute) : Prop :=
  ∃ a, .attribute a ∈ as.flatMap hintItems ∧ a.path.text = "required" ∧ a.argument.affirms

/-- The options of a field as its attributes say. -/
def MemberOptions.said (as : List Attribute) : MemberOptions where
  rename := (supplied "rename" as).getLast?.join
  skip := decide (Carries "skip" as ∨ Carries "skip_serializing" as)
  flatten := decide (Carries "flatten" as)
  skipIf := decide (Carries "skip_serializing_if" as)
  default := decide (Carries "default" as)

/-- The options of a declaration as its attributes say. -/
def ContainerOptions.said (as : List Attribute) : ContainerOptions where
  renameAll := (supplied "rename_all" as).reduceOption.getLast?.bind RenameRule.ofName?
  default := decide (Carries "default" as)

end Source

namespace Proofs.Declarations

open Source Renames

theorem mem_iff_exists {α β : Type} {R : α → β → Prop} {P : α → Prop} {xs : List α} {ys : List β}
    {y : β} (h : List.Forall₂ R xs ys) (hR : ∀ x z, R x z → (z = y ↔ P x)) :
    y ∈ ys ↔ ∃ x ∈ xs, P x := by
  induction h with
  | nil => simp
  | cons hxz _ ih => rw [List.mem_cons, ih, List.exists_mem_cons_iff, eq_comm, hR _ _ hxz]

section

variable {as : List Attribute} {p : Part}

theorem memberOption_word {m : MemberOption} (h : MemberOption.ofPart p = .ok m) :
    (m = .skip ↔ (p.behind? "skip").isSome ∨ (p.behind? "skip_serializing").isSome) ∧
      (m = .flatten ↔ (p.behind? "flatten").isSome) ∧
      (m = .skipIf ↔ (p.behind? "skip_serializing_if").isSome) ∧
      (m = .default ↔ (p.behind? "default").isSome) := by
  obtain ⟨⟨path, rest⟩, hpath, h⟩ := bind_ok.mp h
  simp only [behind?_of_path hpath]
  dsimp only at h
  split at h
  · obtain ⟨⟨name, rest'⟩, _, h⟩ := bind_ok.mp h
    rw [(closed_ok.mp h).2]
    simp [*]
  case h_5 | h_6 =>
    rw [valued_ok h]
    simp [*]
  case h_7 _ hskip hskipped hflatten hskipIf hdefault =>
    rw [valued_ok h, if_neg hskip, if_neg hskipped, if_neg hflatten, if_neg hskipIf,
      if_neg hdefault]
    simp
  all_goals
    rw [(closed_ok.mp h).2]
    simp [*]

theorem containerOption_word {o : ContainerOption} (h : ContainerOption.ofPart p = .ok o) :
    o = .default ↔ (p.behind? "default").isSome := by
  obtain ⟨⟨path, rest⟩, hpath, h⟩ := bind_ok.mp h
  rw [behind?_of_path (mapError_ok.mp hpath)]
  dsimp only at h
  split at h
  · obtain ⟨⟨name, rest'⟩, _, h⟩ := bind_ok.mp h
    obtain ⟨o', ho', h⟩ := bind_ok.mp h
    obtain ⟨rfl, rfl⟩ := closed_ok.mp (mapError_ok.mp h)
    have hne : o ≠ .default := by
      rintro rfl
      unfold ContainerOption.ofRuleName at ho'
      split at ho'
      · cases ho'
      · split at ho' <;> cases ho'
    simp [*]
  · rw [valued_ok (mapError_ok.mp h)]
    simp [*]
  case h_3 hdefault =>
    rw [valued_ok (mapError_ok.mp h), if_neg hdefault]
    simp

theorem memberOptions_foldl (options : List MemberOption) :
    options.foldl MemberOptions.add {} =
      { rename := (options.filterMap MemberOption.renaming?).getLast?.join
        skip := decide (.skip ∈ options)
        flatten := decide (.flatten ∈ options)
        skipIf := decide (.skipIf ∈ options)
        default := decide (.default ∈ options) } := by
  induction options using List.reverseRecOn with
  | nil => rfl
  | append_singleton options o ih =>
    rw [List.foldl_append, List.filterMap_append, ih]
    cases o <;> simp [MemberOptions.add, MemberOption.renaming?]

theorem containerOptions_foldl (options : List ContainerOption) :
    (options.foldl ContainerOptions.add {}).default = decide (.default ∈ options) := by
  induction options using List.reverseRecOn with
  | nil => rfl
  | append_singleton options o ih =>
    rw [List.foldl_append]
    cases o <;> simp [ContainerOptions.add, ih]

theorem memberOptions_said {o : MemberOptions} (h : memberOptions as = .ok o) :
    o = MemberOptions.said as := by
  obtain ⟨options, hoptions, h⟩ := bind_ok.mp h
  cases h
  have hread : List.Forall₂ (fun p m => MemberOption.ofPart p = .ok m)
      (as.flatMap attributeParts) options :=
    (readOptions_ok hoptions).imp fun _ _ => mapError_ok.mp
  have hrename : supplied "rename" as = options.filterMap MemberOption.renaming? :=
    filterMap_eq hread fun _ _ => memberOption_ok
  have hskip : .skip ∈ options ↔ Carries "skip" as ∨ Carries "skip_serializing" as := by
    rw [mem_iff_exists hread fun _ _ h => (memberOption_word h).1]
    simp only [Carries, and_or_left, exists_or]
  have hflatten : .flatten ∈ options ↔ Carries "flatten" as :=
    mem_iff_exists hread fun _ _ h => (memberOption_word h).2.1
  have hskipIf : .skipIf ∈ options ↔ Carries "skip_serializing_if" as :=
    mem_iff_exists hread fun _ _ h => (memberOption_word h).2.2.1
  have hdefault : .default ∈ options ↔ Carries "default" as :=
    mem_iff_exists hread fun _ _ h => (memberOption_word h).2.2.2
  simp only [memberOptions_foldl, MemberOptions.said, hrename, hskip, hflatten, hskipIf, hdefault]

theorem containerOptions_said {c : ContainerOptions} (h : containerOptions as = .ok c) :
    c = ContainerOptions.said as := by
  have hrule := containerOptions_renameAll h
  obtain ⟨options, hoptions, h⟩ := bind_ok.mp h
  cases h
  have hdefault : .default ∈ options ↔ Carries "default" as :=
    mem_iff_exists (readOptions_ok hoptions) fun _ _ => containerOption_word
  rw [ContainerOptions.said, ← hrule, ← decide_eq_decide.mpr hdefault, ← containerOptions_foldl]

end

section

variable {r : Reading Bool}

def fieldSetters : List (String × Setter Bool) :=
  [("required", setRequired)]

theorem setRequired_cases (a : Argument) (old : Bool) :
    setRequired a old = .ok a.affirms ∨ ∃ p ps, setRequired a old = .error (p :: ps) := by
  cases a with
  | none => exact Or.inl rfl
  | list inner => exact Or.inr ⟨_, _, rfl⟩
  | value e =>
    simp only [setRequired, Argument.affirms]
    split <;> simp_all

theorem add_ok {x : ListItem} (h : (r.add fieldSetters x).problems = []) :
    r.problems = [] ∧ ∃ a, x = .attribute a ∧ a.path.text = "required" ∧ "required" ∉ r.given ∧
      r.add fieldSetters x = ⟨a.argument.affirms, "required" :: r.given, []⟩ := by
  obtain _ | a := x
  · simp [Reading.add, Reading.report] at h
  simp only [Reading.add, fieldSetters] at h ⊢
  by_cases hkey : a.path.text = "required"
  · simp only [hkey, List.lookup_cons_self] at h ⊢
    by_cases hgiven : "required" ∈ r.given
    · simp [hgiven, Reading.report] at h
    obtain hset | ⟨p, ps, hset⟩ := setRequired_cases a.argument r.hints
    · simp_all
    · simp [hgiven, hset, Reading.report] at h
  · have hlookup : List.lookup a.path.text [("required", setRequired)] = none := by
      rw [List.lookup_cons, beq_false_of_ne hkey]
      rfl
    simp [hlookup, Reading.report] at h

theorem addItems_ok {items : List ListItem}
    (h : (items.foldl (Reading.add fieldSetters) r).problems = []) : r.problems = [] := by
  induction items generalizing r with
  | nil => exact h
  | cons x items ih => exact (add_ok (ih h)).1

theorem addAttribute_ok {a : Attribute} (h : (r.addAttribute fieldSetters a).problems = []) :
    r.addAttribute fieldSetters a = (hintItems a).foldl (Reading.add fieldSetters) r := by
  unfold Reading.addAttribute at h ⊢
  unfold hintItems
  by_cases hword : a.path.isWord hintsAttribute
  · simp only [hword, if_true] at h ⊢
    cases harg : a.argument with
    | none => rfl
    | value e => simp [harg, Reading.report] at h
    | list inner =>
      simp only [harg, Reading.addList] at h ⊢
      cases hitems : listItems inner with
      | ok items => rfl
      | error fault => simp [hitems, Reading.report] at h
  · simp only [hword]
    cases a.argument <;> rfl

theorem addAttributes_ok {as : List Attribute}
    (h : (as.foldl (Reading.addAttribute fieldSetters) r).problems = []) :
    r.problems = [] ∧ as.foldl (Reading.addAttribute fieldSetters) r =
      (as.flatMap hintItems).foldl (Reading.add fieldSetters) r := by
  induction as generalizing r with
  | nil => exact ⟨h, rfl⟩
  | cons a as ih =>
    obtain ⟨ha, heq⟩ := ih h
    have hitems := addAttribute_ok ha
    refine ⟨addItems_ok (hitems ▸ ha), ?_⟩
    rw [List.foldl_cons, heq, hitems, List.flatMap_cons, List.foldl_append]

theorem hints_of_items {items : List ListItem}
    (h : (items.foldl (Reading.add fieldSetters) ⟨false, [], []⟩).problems = []) :
    items = [] ∧ items.foldl (Reading.add fieldSetters) ⟨false, [], []⟩ = ⟨false, [], []⟩ ∨
      ∃ a, items = [.attribute a] ∧ a.path.text = "required" ∧
        items.foldl (Reading.add fieldSetters) ⟨false, [], []⟩ =
          ⟨a.argument.affirms, ["required"], []⟩ := by
  induction items using List.reverseRecOn with
  | nil => exact Or.inl ⟨rfl, rfl⟩
  | append_singleton items x ih =>
    rw [List.foldl_append] at h ⊢
    obtain ⟨hitems, a, rfl, hkey, hgiven, heq⟩ := add_ok h
    obtain ⟨rfl, hr⟩ | ⟨b, rfl, _, hr⟩ := ih hitems
    · exact Or.inr ⟨a, rfl, hkey, heq⟩
    · rw [hr] at hgiven
      exact absurd List.mem_cons_self hgiven

theorem fieldHints_said {as : List Attribute} (h : (fieldHints as).problems = []) :
    (fieldHints as).hints ↔ HintsRequired as := by
  have heq : fieldHints as =
      (as.flatMap hintItems).foldl (Reading.add fieldSetters) ⟨false, [], []⟩ :=
    (addAttributes_ok h).2
  rw [heq] at h ⊢
  rw [HintsRequired]
  obtain ⟨hnil, hr⟩ | ⟨a, hsingle, hkey, hr⟩ := hints_of_items h
  · rw [hr, hnil]
    simp
  · rw [hr, hsingle]
    simp [hkey]

end

/-- A struct that has a description has named fields, whose hints are no problem, and the
description has those of them that are described. -/
theorem describe_struct {i : Item} {d : Description} {body : Body} (h : i.describe = .ok d)
    (hcontent : i.content = .struct body) :
    ∃ fields ds, body = .named fields ∧ (∀ f ∈ fields, (fieldHints f.attributes).problems = []) ∧
      List.Forall₂ (fun f x => describeField? (.said i.attributes) f = .ok x) fields ds ∧
      d.members = .fields (ds.filterMap id) := by
  simp only [Item.describe, hcontent, Bool.false_eq_true, if_false] at h
  split at h
  · cases h
  rename_i hproblems
  split at h
  · cases h
  have hnone := not_not.mp hproblems
  simp only [Item.hintProblems, hcontent, List.append_eq_nil_iff] at hnone
  obtain ⟨⟨_, hform⟩, hmembers⟩ := hnone
  cases body with
  | unnamed fields => cases hform
  | empty => cases hform
  | named fields =>
    obtain ⟨c, hc, h⟩ := bind_ok.mp (mapError_ok.mp h)
    obtain ⟨members, hm, h⟩ := bind_ok.mp h
    cases h
    rw [hcontent] at hm
    obtain ⟨ds, hds, rfl⟩ := map_eq_ok.mp hm
    refine ⟨fields, ds, rfl, List.flatMap_eq_nil_iff.mp hmembers, ?_, rfl⟩
    exact containerOptions_said hc ▸ mapM_ok hds

end Proofs.Declarations

end ModelSchema
