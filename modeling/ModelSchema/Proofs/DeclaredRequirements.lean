import ModelSchema.Proofs.Declarations
import ModelSchema.Proofs.Requirements

namespace ModelSchema

namespace Source

variable (container : List Attribute) (f : FieldDeclaration)

/-- The field is left out of the description. -/
def FieldDeclaration.IsSkipped : Prop :=
  f.name = none ∨ Carries "skip" f.attributes ∨ Carries "skip_serializing" f.attributes

/-- A hint says that the field is required, or nothing allows it to be missing. -/
def FieldDeclaration.IsNeeded : Prop :=
  HintsRequired f.attributes ∨
    ¬Carries "skip_serializing_if" f.attributes ∧ ¬Carries "default" f.attributes ∧
      ¬Carries "default" container

/-- The name of the field in the data: what its last rename gives, or else what the rule of the
declaration makes of the name in the source. -/
def FieldDeclaration.writtenName (name : Identifier) : String :=
  memberName (supplied "rename" f.attributes).getLast?.join
    ((supplied "rename_all" container).reduceOption.getLast?.bind RenameRule.ofName?)
    RenameRule.field name.name

/-- The description of the field that its attributes and those of the declaration give. -/
def FieldDeclaration.described (name : Identifier) : FieldDescription :=
  describeField (.said container) (fieldHints f.attributes).hints (.said f.attributes) name.name f

end Source

/-- A described field, where the words for its type have the given meaning. -/
def Source.FieldDescription.toField (typeOf : List Source.Token → TypeRef)
    (f : Source.FieldDescription) : Field where
  name := f.name
  type := typeOf f.type
  description := f.description
  omitEmpty := f.omitEmpty
  isInline := f.isInline
  isRequired := f.isRequired

namespace TypeGraph

open Source

variable (g : TypeGraph) (s : Settings)

/-- The walk over the fields of `t` makes the object `o`. -/
def Builds (t : TypeRef) (o : ObjectDescriptor) : Prop :=
  ∃ n p q, Walk.collect g s n t .open p = .ok o q

/-- The names that a field adds to the required ones. An inline field adds those that the struct
requires which it embeds. -/
inductive Contributes : Field → List String → Prop where
  | embedded {f : Field} {e : TypeRef} {o : ObjectDescriptor} (hi : f.isInline = true)
      (he : g.Resolves f.type e) (hs : (g.info (s.substitute e)).kind.isStruct)
      (ho : g.Builds s (s.substitute e) o) : Contributes f o.required
  | own {f : Field} (hi : f.isInline = false) : Contributes f (g.askedNames [f])

/-- The names that a declared field adds to the required ones, as its attributes and those of the
declaration say. -/
inductive Adds (typeOf : List Token → TypeRef) (container : List Attribute) :
    FieldDeclaration → List String → Prop where
  | skipped {f : FieldDeclaration} (hskip : f.IsSkipped) : Adds typeOf container f []
  | flattened {f : FieldDeclaration} {e : TypeRef} {o : ObjectDescriptor} (hskip : ¬f.IsSkipped)
      (hflat : Carries "flatten" f.attributes) (he : g.Resolves (typeOf f.type) e)
      (hs : (g.info (s.substitute e)).kind.isStruct) (ho : g.Builds s (s.substitute e) o) :
      Adds typeOf container f o.required
  | needed {f : FieldDeclaration} {name : Identifier} (hskip : ¬f.IsSkipped)
      (hflat : ¬Carries "flatten" f.attributes) (hname : f.name = some name)
      (htype : (g.info (typeOf f.type)).kind.isOptional = false) (hneed : f.IsNeeded container) :
      Adds typeOf container f [f.writtenName container name]
  | free {f : FieldDeclaration} (hskip : ¬f.IsSkipped) (hflat : ¬Carries "flatten" f.attributes)
      (hfree : (g.info (typeOf f.type)).kind.isOptional = true ∨ ¬f.IsNeeded container) :
      Adds typeOf container f []

end TypeGraph

namespace Proofs.DeclaredRequirements

open Source Requirements
open Renames (map_eq_ok optionsOf renameFor)

section

open Success

variable (g : TypeGraph) (s : Settings)

/-- What a part of the walk does to the progress does not depend on the object that it adds to. -/
def RestartsField (n : Nat) : Prop :=
  ∀ {owner o f p o' q}, Walk.collectField g s n owner o f p = .ok o' q →
    ∀ x, ∃ x', Walk.collectField g s n owner x f p = .ok x' q

def Restarts (n : Nat) : Prop :=
  ∀ {t o p o' q}, Walk.collect g s n t o p = .ok o' q →
    ∀ x, ∃ x', Walk.collect g s n t x p = .ok x' q

theorem collectField_restarts {n : Nat} (hc : Restarts g s n) : RestartsField g s (n + 1) := by
  intro owner o f p o' q h x
  unfold Walk.collectField at h ⊢
  by_cases hi : f.isInline
  · simp only [hi, if_true, bind_ok, ofOption_ok] at h ⊢
    obtain ⟨e, _, ⟨he, rfl⟩, h⟩ := h
    by_cases hs : (g.info e).kind.isStruct
    · simp only [hs, if_true] at h
      obtain ⟨x', hx⟩ := hc h x
      refine ⟨x', e, _, ⟨he, rfl⟩, ?_⟩
      rwa [if_pos hs]
    · simp only [hs, Bool.false_eq_true, if_false, throw_ok] at h
  · simp only [hi, Bool.false_eq_true, if_false, bind_ok, pure_ok] at h ⊢
    obtain ⟨y, _, h, rfl, rfl⟩ := h
    exact ⟨_, y, _, h, rfl, rfl⟩

theorem fields_restart {n : Nat} (hf : RestartsField g s n) (fields : List Field)
    {owner : TypeRef} {o o' : ObjectDescriptor} {p q : Progress}
    (h : fields.foldlM (Walk.collectField g s n owner) o p = .ok o' q) (x : ObjectDescriptor) :
    ∃ x', fields.foldlM (Walk.collectField g s n owner) x p = .ok x' q := by
  induction fields generalizing o x p with
  | nil =>
    rw [List.foldlM_nil, pure_ok] at h
    obtain ⟨_, rfl⟩ := h
    exact ⟨x, rfl⟩
  | cons f fields ih =>
    rw [List.foldlM_cons, bind_ok] at h
    obtain ⟨o₁, p₁, h₁, h⟩ := h
    obtain ⟨x₁, hx₁⟩ := hf h₁ x
    obtain ⟨x', hx⟩ := ih h x₁
    refine ⟨x', ?_⟩
    rw [List.foldlM_cons, bind_ok]
    exact ⟨x₁, p₁, hx₁, hx⟩

theorem walk_restarts (n : Nat) : RestartsField g s n ∧ Restarts g s n := by
  -- By induction on the bound, as the parts call each other under a smaller one.
  induction n with
  | zero =>
    constructor
    · exact fun {_ _ _ _ _ _} h => (throw_ok.mp h).elim
    · exact fun {_ _ _ _ _} h => (throw_ok.mp h).elim
  | succ n ih =>
    obtain ⟨hf, hc⟩ := ih
    refine ⟨collectField_restarts g s hc, ?_⟩
    intro t o p o' q h x
    unfold Walk.collect at h ⊢
    exact fields_restart g s hf _ h x

end

section

open Success

variable {g : TypeGraph} {s : Settings} {n : Nat} {t owner : TypeRef} {o o' : ObjectDescriptor}
  {p q : Progress}

theorem collect_required (h : Walk.collect g s n t o p = .ok o' q) (ho : o.required.Nodup) :
    ∃ x, g.Builds s t x ∧ o'.required = (o.required ++ x.required).eraseDups := by
  obtain ⟨x, hx⟩ := (walk_restarts g s n).2 h .open
  -- Both walks read the same fields.
  obtain ⟨fields, _, hfields, ho', _⟩ := (Growth.walk_grows g s n).2.2.1 h
  obtain ⟨_, _, hfields', hx', _⟩ := (Growth.walk_grows g s n).2.2.1 hx
  cases hfields.symm.trans hfields'
  have hrequired : x.required = (g.askedNames fields).eraseDups :=
    fields_required hx' List.nodup_nil
  refine ⟨x, ⟨n, p, q, hx⟩, ?_⟩
  rw [fields_required ho' ho, hrequired, eraseDups_append_eraseDups]

theorem builds_unique (h : g.Builds s t o) (h' : g.Builds s t o') : o = o' := by
  obtain ⟨n, p, q, h⟩ := h
  obtain ⟨m, p', q', h'⟩ := h'
  obtain ⟨fields, _, hfields, ho, _⟩ := (Growth.walk_grows g s n).2.2.1 h
  obtain ⟨fields', _, hfields', ho', _⟩ := (Growth.walk_grows g s m).2.2.1 h'
  have hobject : g.objectWithin s n t = some o := by
    rw [TypeGraph.objectWithin, hfields]
    exact ho
  have hobject' : g.objectWithin s m t = some o' := by
    rw [TypeGraph.objectWithin, hfields']
    exact ho'
  exact Bounds.unique (fun hle => Reading.objectWithin_keeps g s hle t) hobject hobject'

theorem collectField_contributes {f : Field}
    (h : Walk.collectField g s n owner o f p = .ok o' q) (ho : o.required.Nodup) :
    ∃ names, g.Contributes s f names ∧ o'.required = (o.required ++ names).eraseDups := by
  cases n with
  | zero => exact (throw_ok.mp h).elim
  | succ n =>
    unfold Walk.collectField at h
    cases hi : f.isInline with
    | true =>
      simp only [hi, if_true, bind_ok, ofOption_ok] at h
      obtain ⟨e, _, ⟨he, rfl⟩, h⟩ := h
      obtain ⟨r, hr, rfl⟩ := Option.map_eq_some_iff.mp he
      by_cases hs : (g.info (s.substitute r)).kind.isStruct
      · simp only [hs, if_true] at h
        obtain ⟨x, hx, hrequired⟩ := collect_required h ho
        exact ⟨_, .embedded hi ((Reach.resolves_iff g hr).mpr rfl) hs hx, hrequired⟩
      · simp only [hs, Bool.false_eq_true, if_false, throw_ok] at h
    | false =>
      simp only [hi, Bool.false_eq_true, if_false, bind_ok, pure_ok] at h
      obtain ⟨y, _, _, rfl, rfl⟩ := h
      exact ⟨_, .own hi, required_addField ho f y⟩

theorem fields_contribute (fields : List Field)
    (h : fields.foldlM (Walk.collectField g s n owner) o p = .ok o' q) (ho : o.required.Nodup) :
    ∃ parts, List.Forall₂ (g.Contributes s) fields parts ∧
      o'.required = (o.required ++ parts.flatten).eraseDups := by
  induction fields generalizing o p with
  | nil =>
    rw [List.foldlM_nil, pure_ok] at h
    obtain ⟨rfl, rfl⟩ := h
    exact ⟨[], .nil, by simp [eraseDups_of_nodup ho]⟩
  | cons f fields ih =>
    rw [List.foldlM_cons, bind_ok] at h
    obtain ⟨o₁, p₁, h₁, h⟩ := h
    obtain ⟨names, hnames, hrequired⟩ := collectField_contributes h₁ ho
    obtain ⟨parts, hparts, hrest⟩ := ih h (hrequired ▸ nodup_eraseDups _)
    refine ⟨names :: parts, .cons hnames hparts, ?_⟩
    rw [hrest, hrequired, eraseDups_eraseDups_append, List.append_assoc, List.flatten_cons]

theorem builds_contributions (h : g.Builds s t o) :
    ∃ parts, List.Forall₂ (g.Contributes s) (g.info t).kind.fields parts ∧
      o.required = parts.flatten.eraseDups := by
  obtain ⟨n, p, q, h⟩ := h
  cases n with
  | zero => exact (throw_ok.mp h).elim
  | succ n => exact fields_contribute _ h List.nodup_nil

end

section

open Declarations

variable {g : TypeGraph} {s : Settings} {typeOf : List Token → TypeRef}
  {container : List Attribute} {f : FieldDeclaration} {names : List String}

theorem describeField?_said {x : Option FieldDescription}
    (h : describeField? (.said container) f = .ok x) :
    x = none ∧ f.IsSkipped ∨
      ∃ name, ¬f.IsSkipped ∧ f.name = some name ∧ x = some (f.described container name) := by
  obtain ⟨o, ho, rfl⟩ := map_eq_ok.mp h
  cases memberOptions_said ho
  by_cases hskip : (MemberOptions.said f.attributes).skip = true
  · exact Or.inl ⟨if_pos hskip, Or.inr (of_decide_eq_true hskip)⟩
  · have hkept := mt decide_eq_true hskip
    rw [if_neg hskip]
    cases hname : f.name with
    | none => exact Or.inl ⟨rfl, Or.inl hname⟩
    | some name =>
      refine Or.inr ⟨name, ?_, rfl, rfl⟩
      simpa [FieldDeclaration.IsSkipped, hname] using hkept

theorem described_isRequired (hhints : (fieldHints f.attributes).problems = [])
    (hflat : ¬Carries "flatten" f.attributes) (name : Identifier) :
    (f.described container name).isRequired ↔ f.IsNeeded container := by
  simp [FieldDeclaration.described, describeField, MemberOptions.said, ContainerOptions.said,
    FieldDeclaration.IsNeeded, fieldHints_said hhints, hflat, and_assoc]

theorem described_name (hflat : ¬Carries "flatten" f.attributes) (name : Identifier) :
    (f.described container name).name = f.writtenName container name :=
  if_neg (mt of_decide_eq_true hflat)

theorem adds_of_described {name : Identifier} (hskip : ¬f.IsSkipped) (hname : f.name = some name)
    (hhints : (fieldHints f.attributes).problems = [])
    (h : g.Contributes s ((f.described container name).toField typeOf) names) :
    g.Adds s typeOf container f names := by
  cases h with
  | embedded hi he hs ho => exact .flattened hskip (of_decide_eq_true hi) he hs ho
  | own hi =>
    have hflat := of_decide_eq_false hi
    have hneeded : (f.described container name).isRequired ↔ f.IsNeeded container :=
      described_isRequired hhints hflat name
    by_cases hasks : g.Asks ((f.described container name).toField typeOf)
    · have hwritten : ((f.described container name).toField typeOf).name =
          f.writtenName container name := described_name hflat name
      rw [askedNames_singleton, if_pos hasks, hwritten]
      exact .needed hskip hflat hname (Bool.eq_false_of_not_eq_true hasks.2) (hneeded.mp hasks.1)
    · rw [askedNames_singleton, if_neg hasks]
      refine .free hskip hflat (or_iff_not_imp_right.mpr fun hneed => ?_)
      exact not_not.mp fun htype => hasks ⟨hneeded.mpr (not_not.mp hneed), htype⟩

theorem adds_rightUnique : Relator.RightUnique (g.Adds s typeOf container) := by
  intro f names names' h h'
  cases h with
  | skipped hskip =>
    cases h' with
    | skipped => rfl
    | flattened hkept | needed hkept | free hkept => exact absurd hskip hkept
  | flattened hskip hflat he hs ho =>
    cases h' with
    | skipped hskipped => exact absurd hskipped hskip
    | flattened _ _ he' _ ho' =>
      cases Roles.resolves_unique he he'
      rw [builds_unique ho ho']
    | needed _ hplain | free _ hplain => exact absurd hflat hplain
  | needed hskip hflat hname htype hneed =>
    cases h' with
    | skipped hskipped => exact absurd hskipped hskip
    | flattened _ hflattened => exact absurd hflattened hflat
    | needed _ _ hname' =>
      cases hname.symm.trans hname'
      rfl
    | free _ _ hfree => exact absurd hfree (by simp [htype, hneed])
  | free hskip hflat hfree =>
    cases h' with
    | skipped => rfl
    | flattened _ hflattened => exact absurd hflattened hflat
    | needed _ _ _ htype hneed => exact absurd hfree (by simp [htype, hneed])
    | free => rfl

theorem adds_of_fields {fields : List FieldDeclaration} {ds : List (Option FieldDescription)}
    {parts : List (List String)}
    (hfields : List.Forall₂ (fun f x => describeField? (.said container) f = .ok x) fields ds)
    (hhints : ∀ f ∈ fields, (fieldHints f.attributes).problems = [])
    (h : List.Forall₂ (g.Contributes s) ((ds.filterMap id).map (·.toField typeOf)) parts) :
    ∃ parts', List.Forall₂ (g.Adds s typeOf container) fields parts' ∧
      parts'.flatten = parts.flatten := by
  induction hfields generalizing parts with
  | nil =>
    cases h
    exact ⟨[], .nil, rfl⟩
  | @cons f x fields ds hx _ ih =>
    obtain ⟨hf, hhints⟩ := List.forall_mem_cons.mp hhints
    obtain ⟨rfl, hskip⟩ | ⟨name, hskip, hname, rfl⟩ := describeField?_said hx
    · obtain ⟨parts', hparts, heq⟩ := ih hhints h
      exact ⟨[] :: parts', .cons (.skipped hskip) hparts, heq⟩
    · obtain _ | ⟨hnames, h⟩ := h
      obtain ⟨parts', hparts, heq⟩ := ih hhints h
      refine ⟨_ :: parts', .cons (adds_of_described hskip hname hf hnames) hparts, ?_⟩
      rw [List.flatten_cons, List.flatten_cons, heq]

/-- The walk over a struct that is described by its declaration requires what the fields of the
declaration add, in order and each name once. -/
theorem declared_required {i : Item} {d : Description} {body : Body} {t : TypeRef}
    {valueOf : List Token → String} {o : ObjectDescriptor} {n : Nat} {p q : Progress}
    (hdescribe : i.describe = .ok d) (hstruct : i.content = .struct body)
    (hinfo : g.info t = d.toInfo typeOf valueOf) (h : Walk.collect g s n t .open p = .ok o q) :
    ∃ fields, body = .named fields ∧
      (∃ parts, List.Forall₂ (g.Adds s typeOf i.attributes) fields parts) ∧
      ∀ parts, List.Forall₂ (g.Adds s typeOf i.attributes) fields parts →
        o.required = parts.flatten.eraseDups := by
  obtain ⟨fields, ds, hbody, hhints, hfields, hmembers⟩ := describe_struct hdescribe hstruct
  obtain ⟨parts, hparts, hrequired⟩ := builds_contributions ⟨n, p, q, h⟩
  have hkind : (g.info t).kind.fields = (ds.filterMap id).map (·.toField typeOf) := by
    rw [hinfo, Description.toInfo, hmembers]
    rfl
  rw [hkind] at hparts
  obtain ⟨parts', hadds, heq⟩ := adds_of_fields hfields hhints hparts
  refine ⟨fields, hbody, ⟨parts', hadds⟩, fun parts hadds' => ?_⟩
  have hunique : parts = parts' :=
    List.right_unique_forall₂' adds_rightUnique hadds' hadds
  rw [hunique, heq, hrequired]

end

def hintsOf (hints : List Token) : Attribute :=
  ⟨⟨false, [⟨hintsAttribute, false⟩]⟩, .list hints⟩

/-- A letter embeds its signature. Of its own fields one is renamed, one may be empty, one has a
default but is hinted at, one may be missing, and one is not written. -/
def letterDeclaration : Item where
  attributes := []
  name := ⟨"Letter", false⟩
  isGeneric := false
  content := .struct (.named [
    ⟨[optionsOf [.word "flatten" false]], some ⟨"signed", false⟩, [.word "Signed" false]⟩,
    ⟨[optionsOf (renameFor "serialize" "sentTo")], some ⟨"sent_to", false⟩, [.word "Text" false]⟩,
    ⟨[optionsOf [.word "skip_serializing_if" false, .mark '=' false,
      .literal (.string "isEmpty") "isEmpty"]], some ⟨"seal", false⟩, [.word "Text" false]⟩,
    ⟨[optionsOf [.word "default" false], hintsOf [.word "required" false]],
      some ⟨"weight", false⟩, [.word "Text" false]⟩,
    ⟨[], some ⟨"note", false⟩, [.word "Option" false]⟩,
    ⟨[optionsOf [.word "skip" false]], some ⟨"draft", false⟩, [.word "Text" false]⟩])

def letterType : List Token → TypeRef
  | [.word "Signed" false] => .declared "Signed"
  | [.word "Option" false] => .option (.declared "text")
  | _ => .declared "text"

def declaredPost : TypeGraph where
  info
    | .declared "Letter" => ⟨"Letter", "post", none, .struct [
        { name := "", type := .declared "Signed", isInline := true },
        { name := "sentTo", type := .declared "text", isRequired := true },
        { name := "seal", type := .declared "text", omitEmpty := true },
        { name := "weight", type := .declared "text", isRequired := true },
        { name := "note", type := .option (.declared "text"), isRequired := true }]⟩
    | .declared "Signed" => ⟨"Signed", "post", none, .struct [signedBy]⟩
    | .declared "text" => ⟨"", "", none, .primitive .string⟩
    | .option e => ⟨"", "", none, .optional e⟩
    | _ => ⟨"", "", none, .any⟩
  refs := [.declared "Letter", .declared "Signed", .declared "text", .option (.declared "text")]

theorem letter_declared_required : ∃ d o q fields parts,
    letterDeclaration.describe = .ok d ∧ letterDeclaration.content = .struct (.named fields) ∧
      declaredPost.info (.declared "Letter") = d.toInfo letterType (fun _ => "post") ∧
      Walk.collect declaredPost {} 9 (.declared "Letter") .open {} = .ok o q ∧
      List.Forall₂ (declaredPost.Adds {} letterType []) fields parts ∧
      o.required = parts.flatten.eraseDups ∧ o.required = ["by", "sentTo", "weight"] := by
  obtain ⟨d, hd, hinfo⟩ : ∃ d, letterDeclaration.describe = .ok d ∧
      declaredPost.info (.declared "Letter") = d.toInfo letterType (fun _ => "post") :=
    ⟨_, rfl, rfl⟩
  obtain ⟨o, q, ho, hnames⟩ : ∃ o q,
      Walk.collect declaredPost {} 9 (.declared "Letter") .open {} = .ok o q ∧
      o.required = ["by", "sentTo", "weight"] := ⟨_, _, rfl, rfl⟩
  obtain ⟨fields, hbody, ⟨parts, hadds⟩, hrequired⟩ := declared_required hd rfl hinfo ho
  exact ⟨d, o, q, fields, parts, hd, congrArg Content.struct hbody, hinfo, ho, hadds,
    hrequired parts hadds, hnames⟩

end Proofs.DeclaredRequirements

end ModelSchema
