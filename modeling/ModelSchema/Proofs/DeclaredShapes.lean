import ModelSchema.Api.Kinds
import ModelSchema.Catalogue.Standard
import ModelSchema.Proofs.Arrangement
import ModelSchema.Proofs.DeclaredRequirements

namespace ModelSchema

namespace Api

open Source Proofs.Renames Proofs.DeclaredRequirements

structure Wording where
  name : String
  rename : Option String := none

/-- What is declared of a shape and not told by it: the rule for names, and its members' names in
the source. -/
structure Declared where
  rule : Option RenameRule := none
  members : List Wording

def word (name : String) : Token :=
  .word name false

def assigned (key value : String) : List Token :=
  [word key, .mark '=' false, .literal (.string value) value]

def applied (name : String) (arguments : List Token) : List Token :=
  word name :: .mark '<' false :: arguments ++ [.mark '>' false]

def Shape.words : Shape → List Token
  | .text => [word "String"]
  | .flag => [word "bool"]
  | .int64 => [word "i64"]
  | .moment => [word "Time"]
  | .raw => [word "RawExtension"]
  | .choice l _ _ => [word l.name]
  | .list e => applied "Vec" e.words
  | .table e => applied "BTreeMap" (word "String" :: .mark ',' false :: e.words)
  | .optional e => applied "Option" e.words
  | .record l _ _ => [word l.name]

def Shape.emptiness : Shape → String
  | .optional _ => "Option::is_none"
  | .list _ => "Vec::is_empty"
  | _ => "String::is_empty"

def Presence.options (s : Shape) : Presence → List (List Token)
  | .required => []
  | .defaulted => [[word "default"]]
  | .omittable => [[word "default"], assigned "skip_serializing_if" s.emptiness]

def Wording.options (w : Wording) : List (List Token) :=
  (w.rename.map (assigned "rename")).toList

def optionAttributes (options : List (List Token)) : List Attribute :=
  if options.isEmpty then [] else [optionsOf ([.mark ',' false].intercalate options)]

def docAttribute (line : List Char) : Attribute :=
  let text := String.ofList (' ' :: line)
  ⟨⟨false, [⟨"doc", false⟩]⟩, .value ⟨.literal (.string text), [.literal (.string text) text]⟩⟩

def documenting (description : Option String) : List Attribute :=
  (description.map fun text => (text.toList.splitOn '\n').map docAttribute).getD []

def Fields.declarations : Fields → List Wording → List FieldDeclaration
  | .own l s rest, w :: ws =>
    ⟨documenting l.description ++ optionAttributes (w.options ++ l.presence.options s),
      some ⟨w.name, false⟩, s.words⟩ :: rest.declarations ws
  | .spread l _ rest, w :: ws =>
    ⟨optionAttributes [[word "flatten"]], some ⟨w.name, false⟩, [word l.name]⟩ ::
      rest.declarations ws
  | _, _ => []

def Wording.variant (w : Wording) : VariantDeclaration :=
  ⟨optionAttributes w.options, ⟨w.name, false⟩, .empty⟩

def Label.declaration (l : Label) (rule : Option RenameRule) (content : Content) : Item where
  attributes := documenting l.description ++
    hintsOf [word "package", .mark '=' false, word "PACKAGE"] ::
      optionAttributes (rule.map fun r => assigned "rename_all" r.name).toList
  name := ⟨l.name, false⟩
  isGeneric := false
  content

def Shape.declaration? (d : Declared) : Shape → Option Item
  | .choice l _ _ => some (l.declaration d.rule (.enumeration (d.members.map Wording.variant)))
  | .record l _ fs => some (l.declaration d.rule (.struct (.named (fs.declarations d.members))))
  | _ => none

section

variable (typeOf : List Token → TypeRef)

/-- The rule and the renames make the names in the source those in the data, and the words for the
types have this meaning. -/
def Fields.isWordedBy (rule : Option RenameRule) : Fields → List Wording → Bool
  | .nil, [] => true
  | .own l s rest, w :: ws =>
    memberName w.rename rule RenameRule.field w.name = l.name &&
      typeOf s.words = s.typeRef && rest.isWordedBy rule ws
  | .spread l _ rest, _ :: ws => typeOf [word l.name] = l.type && rest.isWordedBy rule ws
  | _, _ => false

def Shape.isWordedBy (d : Declared) : Shape → Bool
  | .choice _ first others =>
    d.members.map (fun w => memberName w.rename d.rule RenameRule.variant w.name) = first :: others
  | .record _ _ fs => fs.isWordedBy typeOf d.rule d.members
  | _ => false

end

def Fields.descriptions : Fields → List String
  | .nil => []
  | .own l _ rest => l.description.toList ++ rest.descriptions
  | .spread _ _ rest => rest.descriptions

def Shape.descriptions : Shape → List String
  | .choice l _ _ => l.description.toList
  | .record l _ fs => l.description.toList ++ fs.descriptions
  | _ => []

def FieldLabel.described (l : FieldLabel) (s : Shape) : FieldDescription where
  name := l.name
  type := s.words
  omitEmpty := l.presence = .omittable
  isRequired := l.presence = .required
  description := l.description

def Label.embedded (l : Label) : FieldDescription where
  name := ""
  type := [word l.name]
  isInline := true

def Label.described (l : Label) (members : Members) : Description where
  target := ⟨l.name, false⟩
  library := defaultLibrary
  package := .expression [word "PACKAGE"]
  members
  description := l.description

namespace Console

def meaning : Nat → List Token → TypeRef
  | n + 1, .word "Option" _ :: .mark '<' _ :: ts => .option (meaning n ts.dropLast)
  | n + 1, .word "Vec" _ :: .mark '<' _ :: ts => .list (meaning n ts.dropLast)
  | _, [.word name _] =>
    if shapes.any (·.name? = some name) then Standard.consoleType name else .standard name
  | _, _ => default

/-- The types of the group stand beside those of the shared machinery. -/
def typeOf (ts : List Token) : TypeRef :=
  meaning ts.length ts

def plain (members : List String) : Declared where
  members := members.map ({ name := · })

def camel (members : List String) : Declared :=
  { plain members with rule := some .camel }

def declaredKind : Declared :=
  plain ["types", "metadata", "spec"]

def declaredList : Declared :=
  plain ["types", "metadata", "items"]

def declared : List Declared :=
  [declaredKind,
    camel ["link", "location", "application_menu", "namespace_dashboard"],
    { members := [{ name := "section" }, { name := "image_url", rename := some "imageURL" }] },
    camel ["namespaces", "namespace_selector"],
    plain ["ApplicationMenu", "HelpMenu", "UserMenu", "NamespaceDashboard"],
    declaredList,
    declaredKind,
    camel ["display_name", "description", "links"],
    plain ["text", "href"],
    declaredList,
    declaredKind,
    camel ["text", "href_template", "namespace_filter"],
    declaredList,
    declaredKind,
    camel ["text", "location", "link", "color", "background_color"],
    plain ["BannerTop", "BannerBottom", "BannerTopBottom"],
    declaredList,
    declaredKind,
    camel ["target_resource", "title", "description", "yaml", "snippet"],
    declaredList,
    plain ["text", "href"]]

end Console

end Api

namespace Proofs.DeclaredShapes

open Source Api Renames DeclaredRequirements

def Tidy (text : String) : Prop :=
  ∃ c d, text.toList.head? = some c ∧ text.toList.getLast? = some d ∧
    Text.isBlank c = false ∧ Text.isBlank d = false

theorem Tidy.trim {text : String} (h : Tidy text) : Text.trim text.toList = text.toList := by
  obtain ⟨c, d, hc, hd, hblank, hblank'⟩ := h
  have hfront : text.toList.dropWhile Text.isBlank = text.toList := by
    obtain ⟨cs, hcs⟩ := List.head?_eq_some_iff.mp hc
    rw [hcs, List.dropWhile_cons_of_neg (by simp [hblank])]
  have hback : text.toList.reverse.dropWhile Text.isBlank = text.toList.reverse := by
    obtain ⟨cs, hcs⟩ := List.getLast?_eq_some_iff.mp hd
    rw [hcs, List.reverse_append, List.reverse_singleton, List.singleton_append,
      List.dropWhile_cons_of_neg (by simp [hblank'])]
  rw [Text.trim, hfront, hback, List.reverse_reverse]

theorem tidy_of_chars {cs : List Char} {c d : Char} {text : String}
    (htext : String.ofList cs = text) (hc : cs.head? = some c) (hd : cs.getLast? = some d)
    (hblank : Text.isBlank c = false) (hblank' : Text.isBlank d = false) : Tidy text := by
  -- The characters of a literal text are found by unification, which is faster than decoding.
  subst htext
  exact ⟨c, d, by rwa [String.toList_ofList], by rwa [String.toList_ofList], hblank, hblank'⟩

theorem Tidy.append {text text' : String} (h : Tidy text) (h' : Tidy text') (between : String) :
    Tidy (text ++ between ++ text') := by
  obtain ⟨c, _, hc, _, hblank, _⟩ := h
  obtain ⟨_, d, _, hd, _, hblank'⟩ := h'
  refine ⟨c, d, ?_, ?_, hblank, hblank'⟩
  · rw [String.toList_append, String.toList_append, List.append_assoc, List.head?_append, hc]
    rfl
  · rw [String.toList_append, List.getLast?_append, hd]
    rfl

theorem tidy_lines {ls : List String} (hne : ls ≠ []) (h : ∀ l ∈ ls, Tidy l) :
    Tidy (Console.lines ls) := by
  induction ls with
  | nil => exact absurd rfl hne
  | cons l ls ih =>
    obtain ⟨hl, hls⟩ := List.forall_mem_cons.mp h
    cases ls with
    | nil => rwa [Console.lines, String.intercalate_singleton]
    | cons l' ls =>
      rw [Console.lines, String.intercalate_cons_cons]
      exact hl.append (ih (List.cons_ne_nil _ _) hls) "\n"

theorem documenting_cases (description : Option String) :
    ∃ ls : List (List Char), documenting description = ls.map docAttribute := by
  cases description with
  | none => exact ⟨[], rfl⟩
  | some text => exact ⟨text.toList.splitOn '\n', rfl⟩

theorem docLine?_docAttribute (line : List Char) : docLine? (docAttribute line) = some line := by
  have hdoc : (docAttribute line).path.isWord "doc" = true := rfl
  rw [docLine?, hdoc]
  simp only [docAttribute, String.toList_ofList]

theorem documentation_documenting {description : Option String} {as : List Attribute}
    (hd : ∀ text ∈ description, Tidy text) (has : as.filterMap docLine? = []) :
    documentation (documenting description ++ as) = description := by
  cases description with
  | none =>
    rw [show documenting none ++ as = as from rfl, documentation, has]
    rfl
  | some text =>
    have hlines : ((text.toList.splitOn '\n').map docAttribute).filterMap docLine? =
        text.toList.splitOn '\n' := by
      rw [List.filterMap_map, show docLine? ∘ docAttribute = some from
        funext docLine?_docAttribute, List.filterMap_some]
    obtain ⟨c, _, hc, _⟩ := hd text rfl
    obtain ⟨cs, hcs⟩ := List.head?_eq_some_iff.mp hc
    simp only [documentation, documenting, Option.map_some, Option.getD_some, List.filterMap_append,
      hlines, has, List.append_nil, List.intercalate_splitOn, (hd text rfl).trim]
    split
    · simp_all
    · rw [String.ofList_toList]

-- Documentation is neither an option nor a hint.

theorem readOptions_docAttributes {α : Type} (read : Part → Except OptionProblem α)
    (ls : List (List Char)) (as : List Attribute) :
    readOptions read (ls.map docAttribute ++ as) = readOptions read as := by
  induction ls with
  | nil => rfl
  | cons l ls ih =>
    have hparts : optionParts (docAttribute l) = .ok [] := rfl
    rw [← ih, List.map_cons, List.cons_append, Arrangement.readOptions_cons, hparts]
    cases readOptions read _ <;> rfl

theorem readHints_docAttributes {σ : Type} (setters : List (String × Setter σ)) (default : σ)
    (ls : List (List Char)) (as : List Attribute) :
    readHints setters default (ls.map docAttribute ++ as) = readHints setters default as := by
  induction ls with
  | nil => rfl
  | cons l ls ih => exact ih

theorem filterMap_optionAttributes (options : List (List Token)) :
    (optionAttributes options).filterMap docLine? = [] := by
  cases options <;> rfl

theorem memberOptions_own (description : Option String) (w : Wording) (p : Presence) (s : Shape) :
    memberOptions (documenting description ++ optionAttributes (w.options ++ p.options s)) =
      .ok { rename := w.rename, skipIf := p = .omittable, default := p ≠ .required } := by
  obtain ⟨ls, hls⟩ := documenting_cases description
  rw [hls, memberOptions, readOptions_docAttributes]
  obtain ⟨name, _ | rename⟩ := w <;> cases p <;> rfl

theorem fieldHints_own (description : Option String) (options : List (List Token)) :
    fieldHints (documenting description ++ optionAttributes options) = { hints := false } := by
  obtain ⟨ls, hls⟩ := documenting_cases description
  rw [hls, fieldHints, readHints_docAttributes]
  cases options <;> rfl

section

variable {typeOf : List Token → TypeRef} {rule : Option RenameRule}

theorem describeField?_own {w : Wording} {l : FieldLabel} {s : Shape}
    (hname : memberName w.rename rule RenameRule.field w.name = l.name)
    (hl : ∀ text ∈ l.description, Tidy text) :
    describeField? { renameAll := rule }
        ⟨documenting l.description ++ optionAttributes (w.options ++ l.presence.options s),
          some ⟨w.name, false⟩, s.words⟩ =
      .ok (some (l.described s)) := by
  rw [describeField?, memberOptions_own]
  simp only [Except.map, describeField, fieldHints_own, Option.map_some, Bool.false_eq_true,
    if_false, hname, documentation_documenting hl (filterMap_optionAttributes _),
    FieldLabel.described]
  cases l.presence <;> rfl

theorem describe_fields {fs : Fields} {ws : List Wording} (h : fs.isWordedBy typeOf rule ws)
    (ht : ∀ text ∈ fs.descriptions, Tidy text) :
    (∀ f ∈ fs.declarations ws, (fieldHints f.attributes).problems = []) ∧
      ∃ ds : List FieldDescription,
        (fs.declarations ws).mapM (describeField? { renameAll := rule }) = .ok (ds.map some) ∧
          ds.map (·.toField typeOf) = fs.schemaFields := by
  induction fs, ws using Fields.declarations.induct with
  | case1 l s rest w ws ih =>
    simp only [Fields.isWordedBy, Bool.and_eq_true, decide_eq_true_eq] at h
    obtain ⟨⟨hname, htype⟩, hrest⟩ := h
    simp only [Fields.descriptions, List.forall_mem_append, Option.mem_toList] at ht
    obtain ⟨hhints, ds, hds, hfields⟩ := ih hrest ht.2
    have hown := describeField?_own (s := s) hname ht.1
    refine ⟨List.forall_mem_cons.mpr ⟨by rw [fieldHints_own], hhints⟩, l.described s :: ds, ?_, ?_⟩
    · rw [Fields.declarations, List.mapM_cons, hown, hds]
      rfl
    · rw [List.map_cons, hfields, Fields.schemaFields, ← htype]
      rfl
  | case2 l fs rest w ws ih =>
    simp only [Fields.isWordedBy, Bool.and_eq_true, decide_eq_true_eq] at h
    obtain ⟨hhints, ds, hds, hfields⟩ := ih h.2 ht
    refine ⟨List.forall_mem_cons.mpr ⟨rfl, hhints⟩, l.embedded :: ds, ?_, ?_⟩
    · rw [Fields.declarations, List.mapM_cons, hds]
      rfl
    · rw [List.map_cons, hfields, Fields.schemaFields, ← h.1]
      rfl
  | case3 fs ws hown hspread =>
    have hnil : fs = .nil ∧ ws = [] := by
      cases fs <;> cases ws <;> simp_all [Fields.isWordedBy]
    obtain ⟨rfl, rfl⟩ := hnil
    exact ⟨by simp [Fields.declarations], [], rfl, rfl⟩

theorem describeVariant?_variant (w : Wording) :
    describeVariant? { renameAll := rule } w.variant =
      .ok (some (memberName w.rename rule RenameRule.variant w.name)) := by
  obtain ⟨name, _ | rename⟩ := w <;> rfl

theorem describe_variants (rule : Option RenameRule) (ws : List Wording) :
    (∀ v ∈ ws.map Wording.variant,
        v.body.form = .empty ∧ (variantHints v.attributes).problems = []) ∧
      (ws.map Wording.variant).mapM (describeVariant? { renameAll := rule }) =
        .ok ((ws.map fun w => memberName w.rename rule RenameRule.variant w.name).map some) := by
  induction ws with
  | nil => exact ⟨by simp, rfl⟩
  | cons w ws ih =>
    refine ⟨List.forall_mem_cons.mpr ⟨⟨rfl, ?_⟩, ih.1⟩, ?_⟩
    · obtain ⟨name, _ | rename⟩ := w <;> rfl
    · rw [List.map_cons, List.mapM_cons, describeVariant?_variant, ih.2]
      rfl

end

section

variable (l : Label) (rule : Option RenameRule) (content : Content)

theorem containerOptions_declaration :
    containerOptions (l.declaration rule content).attributes = .ok { renameAll := rule } := by
  obtain ⟨ls, hls⟩ := documenting_cases l.description
  rw [Label.declaration, hls, containerOptions, readOptions_docAttributes]
  cases rule with
  | none => rfl
  | some rule => cases rule <;> rfl

theorem containerHints_declaration :
    (containerHints (l.declaration rule content).attributes).problems = [] ∧
      (containerHints (l.declaration rule content).attributes).hints =
        { package := some (.expression [word "PACKAGE"]) } := by
  obtain ⟨ls, hls⟩ := documenting_cases l.description
  rw [Label.declaration, hls, containerHints, readHints_docAttributes]
  cases rule <;> exact ⟨rfl, rfl⟩

theorem describe_content {members : Members} (hl : ∀ text ∈ l.description, Tidy text)
    (hunion : content ≠ .union) (hform : content.formProblems = [])
    (hhints : content.memberProblems = [])
    (hmembers : describeMembers { renameAll := rule } content = .ok members) :
    (l.declaration rule content).describe = .ok (l.described members) := by
  obtain ⟨hproblems, hpackage⟩ := containerHints_declaration l rule content
  have hdoc : documentation (l.declaration rule content).attributes = l.description :=
    documentation_documenting hl (by cases rule <;> rfl)
  have hnone : (l.declaration rule content).hintProblems = [] := by
    rw [Item.hintProblems, hproblems]
    simp [Label.declaration, hform, hhints]
  have hvalid : (l.declaration rule content).describeValid = .ok (l.described members) := by
    rw [Item.describeValid, containerOptions_declaration, hpackage, hdoc]
    show (do let members ← describeMembers { renameAll := rule } content; _) = _
    rw [hmembers]
    rfl
  rw [Item.describe, hvalid, hnone]
  cases content with
  | union => exact absurd rfl hunion
  | _ => rfl

end

/-- The type information of a named shape is what its declaration is described by. -/
theorem describe_shape {typeOf : List Token → TypeRef} {package : String} {d : Declared} {s : Shape}
    (h : s.isWordedBy typeOf d) (ht : ∀ text ∈ s.descriptions, Tidy text) :
    ∃ i x, s.declaration? d = some i ∧ i.describe = .ok x ∧
      s.typeInfo? package = some (x.toInfo typeOf fun _ => package) := by
  cases s with
  | choice l first others =>
    simp only [Shape.isWordedBy, decide_eq_true_eq] at h
    simp only [Shape.descriptions, Option.mem_toList] at ht
    obtain ⟨hvariants, hnames⟩ := describe_variants d.rule d.members
    have hform : (Content.enumeration (d.members.map Wording.variant)).formProblems = [] := by
      refine List.filterMap_eq_nil_iff.mpr fun v hv => ?_
      rw [if_pos (hvariants v hv).1]
    have hhints : (Content.enumeration (d.members.map Wording.variant)).memberProblems = [] :=
      List.flatMap_eq_nil_iff.mpr fun v hv => (hvariants v hv).2
    have hmembers : describeMembers { renameAll := d.rule }
        (.enumeration (d.members.map Wording.variant)) = .ok (.values (first :: others)) := by
      rw [describeMembers, hnames, h]
      simp [Except.map]
    exact ⟨_, _, rfl, describe_content l d.rule _ ht (by simp) hform hhints hmembers, rfl⟩
  | record l reading fs =>
    simp only [Shape.descriptions, List.forall_mem_append, Option.mem_toList] at ht
    obtain ⟨hhints, ds, hds, hfields⟩ := describe_fields h ht.2
    have hmembers : describeMembers { renameAll := d.rule }
        (.struct (.named (fs.declarations d.members))) = .ok (.fields ds) := by
      rw [describeMembers, hds]
      simp [Except.map]
    refine ⟨_, _, rfl, describe_content l d.rule _ ht.1 (by simp) rfl
      (List.flatMap_eq_nil_iff.mpr hhints) hmembers, ?_⟩
    rw [Shape.typeInfo?, ← hfields]
    rfl
  | _ => cases h

open Console in
theorem shapes_tidy : ∀ s ∈ Console.shapes, ∀ text ∈ s.descriptions, Tidy text := by
  simp only [Console.shapes, consoleLink, consoleLinkSpec, applicationMenuSpec,
    namespaceDashboardSpec, consoleLinkLocation, consoleLinkList, consoleCLIDownload,
    consoleCLIDownloadSpec, cliDownloadLink, consoleCLIDownloadList, consoleExternalLogLink,
    consoleExternalLogLinkSpec, consoleExternalLogLinkList, consoleNotification,
    consoleNotificationSpec, consoleNotificationLocationSelector, consoleNotificationList,
    consoleYAMLSample, consoleYAMLSampleSpec, consoleYAMLSampleList, link, linkFields, linkLabel,
    kind, kindList, record, label, field, extra, required, Shape.descriptions, Fields.descriptions,
    Option.toList_some, Option.toList_none, List.nil_append, List.cons_append,
    List.forall_mem_cons, List.not_mem_nil, IsEmpty.forall_iff, implies_true, and_true]
  and_intros
  all_goals first
    | exact tidy_of_chars rfl rfl rfl rfl rfl
    | apply tidy_lines (List.cons_ne_nil _ _)
      simp only [List.forall_mem_cons, List.not_mem_nil, IsEmpty.forall_iff, implies_true, and_true]
      and_intros <;> exact tidy_of_chars rfl rfl rfl rfl rfl

theorem shapes_worded :
    List.Forall₂ (fun s d => s.isWordedBy Console.typeOf d) Console.shapes Console.declared := by
  decide +kernel

/-- The type information of every shape of the console group is what its declaration is described
by, from the names in the source and the options in its attributes. -/
theorem shapes_described :
    List.Forall₂ (fun s d => ∃ i x, s.declaration? d = some i ∧ i.describe = .ok x ∧
        s.typeInfo? Api.Console.package =
          some (x.toInfo Console.typeOf fun _ => Api.Console.package))
      Console.shapes Console.declared := by
  have h := (List.forall₂_and_left _ _).mpr ⟨shapes_tidy, shapes_worded⟩
  exact h.imp fun _ _ ⟨htidy, hworded⟩ => describe_shape hworded htidy

end Proofs.DeclaredShapes

end ModelSchema
