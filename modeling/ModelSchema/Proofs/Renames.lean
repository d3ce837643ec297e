import Mathlib.Data.List.Forall2
import Mathlib.Data.List.Induction
import Mathlib.Data.List.ReduceOption
import ModelSchema.Source.Options

namespace ModelSchema

namespace Source

namespace Part

/-- What stands behind the key of an option. -/
def behind? (key : String) (p : Part) : Option (List Token) :=
  match p.tokens with
  | .word name false :: rest =>
    if name = key ∧ (afterColons? rest).isNone then some rest else none
  | _ => none

def text? (key : String) (p : Part) : Option String :=
  match p.behind? key with
  | some [.mark '=' _, .literal (.string s) _] => some s
  | _ => none

end Part

/-- The name that is given for serialization behind a key: a string, or the last one that is marked
so in parentheses. -/
def suppliedName : List Token → Option String
  | [.mark '=' _, .literal (.string s) _] => some s
  | [.group .paren inner] => ((parts inner).filterMap (Part.text? "serialize")).getLast?
  | _ => none

def attributeParts (a : Attribute) : List Part :=
  match a.argument with
  | .list inner => if a.path.isWord optionsAttribute then parts inner else []
  | _ => []

/-- What each option `key` gives, in the order of the attributes. -/
def supplied (key : String) (as : List Attribute) : List (Option String) :=
  (as.flatMap attributeParts).filterMap fun p => (p.behind? key).map suppliedName

def MemberOption.renaming? : MemberOption → Option (Option String)
  | .rename name => some name
  | _ => none

def ContainerOption.rule? : ContainerOption → Option RenameRule
  | .renameAll rule => some rule
  | _ => none

end Source

namespace Proofs.Renames

open Source

section

variable {α β γ ε : Type}

theorem bind_ok {x : Except ε α} {f : α → Except ε β} {b : β} :
    (x >>= f) = .ok b ↔ ∃ a, x = .ok a ∧ f a = .ok b := by
  cases x with
  | error e => simp [bind, Except.bind]
  | ok a => simp [bind, Except.bind]

theorem mapError_ok {ε' : Type} {x : Except ε α} {f : ε → ε'} {a : α} :
    x.mapError f = .ok a ↔ x = .ok a := by
  cases x <;> simp [Except.mapError]

theorem map_eq_ok {x : Except ε α} {f : α → β} {b : β} :
    x.map f = .ok b ↔ ∃ a, x = .ok a ∧ f a = b := by
  cases x <;> simp [Except.map]

theorem mapM_ok {f : α → Except ε β} {xs : List α} {ys : List β} (h : xs.mapM f = .ok ys) :
    List.Forall₂ (fun x y => f x = .ok y) xs ys := by
  induction xs generalizing ys with
  | nil =>
    cases h
    exact .nil
  | cons x xs ih =>
    rw [List.mapM_cons] at h
    obtain ⟨y, hy, h⟩ := bind_ok.mp h
    obtain ⟨zs, hzs, h⟩ := bind_ok.mp h
    cases h
    exact .cons hy (ih hzs)

theorem filterMap_eq {f : α → Option γ} {k : β → Option γ} {R : α → β → Prop} {xs : List α}
    {ys : List β} (h : List.Forall₂ R xs ys) (hR : ∀ x y, R x y → f x = k y) :
    xs.filterMap f = ys.filterMap k := by
  induction h with
  | nil => rfl
  | cons hxy _ ih => rw [List.filterMap_cons, List.filterMap_cons, hR _ _ hxy, ih]

theorem foldl_or (xs : List (Option α)) :
    xs.foldl (fun last x => x.or last) none = xs.reduceOption.getLast? := by
  induction xs using List.reverseRecOn with
  | nil => rfl
  | append_singleton xs x ih =>
    rw [List.foldl_append, ih]
    cases x with
    | none => simp [List.reduceOption_append]
    | some a => simp [List.reduceOption_append]

theorem getLast_join_iff (xs : List (Option α)) :
    xs.getLast?.join = xs.reduceOption.getLast? ↔
      (xs.getLast? = some none → ∀ x ∈ xs, x = none) := by
  induction xs using List.reverseRecOn with
  | nil => simp
  | append_singleton xs x ih =>
    cases x with
    | some a => simp [List.reduceOption_append]
    | none =>
      have hnil : xs.reduceOption = [] ↔ ∀ x ∈ xs, x = none := by
        simp [List.reduceOption, List.filterMap_eq_nil_iff]
      simp only [List.getLast?_concat, Option.join_some, List.reduceOption_append,
        List.reduceOption_singleton, Option.toList_none, List.append_nil, forall_const]
      rw [eq_comm, List.getLast?_eq_none_iff, hnil]
      simp [or_imp]

end

theorem reader_map_ok {α β : Type} {f : α → β} {r : Reader α} {ts rest : List Token} {b : β} :
    (f <$> r) ts = .ok (b, rest) ↔ ∃ a, r ts = .ok (a, rest) ∧ f a = b := by
  show (r ts >>= fun x => pure (f x.1, x.2)) = .ok (b, rest) ↔ _
  rw [bind_ok]
  constructor
  · rintro ⟨⟨a, ts'⟩, h, he⟩
    cases he
    exact ⟨a, h, rfl⟩
  · rintro ⟨a, h, rfl⟩
    exact ⟨(a, rest), h, rfl⟩

theorem moreNames_nil {q : Token → Bool} {what : Expected} {ts rest : List Token}
    {names : List Identifier} (h : Reader.moreNames q what ts.length ts = .ok (names, rest)) :
    (names = [] ↔ afterColons? ts = none) ∧ (names = [] → rest = ts) := by
  cases ts with
  | nil =>
    cases h
    simp [afterColons?]
  | cons t ts =>
    rw [List.length_cons, Reader.moreNames] at h
    dsimp only at h
    split at h
    · rename_i hnone
      cases h
      simp [hnone]
    · rename_i name isRaw more hsome
      split at h
      · obtain ⟨ns, _, rfl⟩ := reader_map_ok.mp h
        simp [hsome]
      · cases h
    · cases h

theorem path?_ok {q : Token → Bool} {what : Expected} {ts rest : List Token} {path : Path}
    (h : Reader.path? q what ts = .ok (some path, rest)) :
    ∃ name isRaw more names, (afterColons? ts).getD ts = .word name isRaw :: more ∧
      path = ⟨(afterColons? ts).isSome, ⟨name, isRaw⟩ :: names⟩ ∧
      Reader.moreNames q what more.length more = .ok (names, rest) := by
  simp only [Reader.path?] at h
  split at h
  · rename_i name isRaw more hts
    split at h
    · obtain ⟨names, hnames, hpath⟩ := reader_map_ok.mp h
      cases hpath
      exact ⟨name, isRaw, more, names, hts, rfl, hnames⟩
    · cases h
  · cases h

theorem behind?_of_path {p : Part} {path : Path} {rest : List Token} (h : p.path = .ok (path, rest))
    (key : String) : p.behind? key = if path.word? = some key then some rest else none := by
  obtain ⟨q, what, hpath⟩ : ∃ q what, Reader.path? q what p.tokens = .ok (some path, rest) := by
    simp only [Part.path] at h
    split at h
    · rename_i hok
      cases h
      exact ⟨_, _, hok⟩
    · split at h
      · cases h
      · split at h <;> cases h
    · cases h
    · cases h
  obtain ⟨name, isRaw, more, names, htokens, rfl, hnames⟩ := path?_ok hpath
  obtain ⟨hnil, hrest⟩ := moreNames_nil hnames
  cases hcolons : afterColons? p.tokens with
  | some ts =>
    -- The tokens begin with a mark.
    have hbehind : p.behind? key = none := by
      simp only [Part.behind?]
      split
      · rename_i hword
        simp [hword, afterColons?] at hcolons
      · rfl
    simp [hbehind, Path.word?]
  | none =>
    rw [hcolons, Option.getD_none] at htokens
    cases isRaw with
    | true => simp [Part.behind?, htokens, Path.word?]
    | false =>
      by_cases hnames' : names = []
      · simp [Part.behind?, htokens, Path.word?, hnames', hnil.mp hnames', hrest hnames']
      · have hsome : (afterColons? more).isNone = false := by
          cases hmore : afterColons? more with
          | none => exact absurd (hnil.mpr hmore) hnames'
          | some _ => rfl
        obtain ⟨n, ns, rfl⟩ := List.exists_cons_of_ne_nil hnames'
        simp [Part.behind?, htokens, Path.word?, hsome]

theorem stringValue_ok {p : Part} {ts rest : List Token} {s : String} :
    p.stringValue ts = .ok (s, rest) ↔ ∃ text, ts = .literal (.string s) text :: rest := by
  constructor
  · intro h
    simp only [Part.stringValue] at h
    split at h
    · cases h
      exact ⟨_, rfl⟩
    · cases h
  · rintro ⟨text, rfl⟩
    rfl

theorem closed_ok {α : Type} {a b : α} {rest : List Token} :
    Part.closed a rest = .ok b ↔ rest = [] ∧ b = a := by
  cases rest with
  | nil => simp [Part.closed, eq_comm]
  | cons t ts => simp [Part.closed]

theorem valued_ok {α : Type} {p : Part} {a b : α} {rest : List Token}
    (h : p.valued a rest = .ok b) : b = a := by
  obtain ⟨_, _, h⟩ := bind_ok.mp h
  exact (closed_ok.mp h).2

theorem innerName_ok {p : Part} {name : Option String} (h : p.innerName = .ok name) :
    p.text? "serialize" = name := by
  obtain ⟨⟨path, rest⟩, hpath, h⟩ := bind_ok.mp h
  simp only [Part.text?, behind?_of_path hpath]
  by_cases hword : path.word? = some "serialize"
  · simp only [hword, if_true] at h ⊢
    split at h
    · obtain ⟨⟨s, rest'⟩, hs, h⟩ := bind_ok.mp h
      obtain ⟨text, rfl⟩ := stringValue_ok.mp hs
      obtain ⟨rfl, rfl⟩ := closed_ok.mp h
      rfl
    · cases h
    · rename_i hne _
      exact absurd rfl hne
  · simp only [hword, if_false] at h ⊢
    split at h
    · contradiction
    · contradiction
    · exact (valued_ok h).symm

theorem serializedName_ok {p : Part} {ts : List Token} {name : Option String}
    (h : p.serializedName ts = .ok (name, [])) : suppliedName ts = name := by
  simp only [Part.serializedName] at h
  split at h
  · obtain ⟨⟨s, rest⟩, hs, h⟩ := map_eq_ok.mp h
    obtain ⟨text, rfl⟩ := stringValue_ok.mp hs
    cases h
    rfl
  · rename_i inner rest
    split at h
    · cases h
    · obtain ⟨names, hnames, h⟩ := bind_ok.mp h
      cases h
      have hall := mapM_ok hnames
      have heq : (parts inner).filterMap (Part.text? "serialize") = names.filterMap id :=
        filterMap_eq hall fun p name hp => innerName_ok hp
      simp only [suppliedName, heq]
      exact (foldl_or names).symm
  · cases h

theorem optionParts_ok {a : Attribute} {ps : List Part} (h : optionParts a = .ok ps) :
    attributeParts a = ps := by
  simp only [optionParts] at h
  split at h
  · rename_i hword
    split at h
    · cases h
    · cases h
    · rename_i hlist
      cases h
      simp [attributeParts, hlist, hword]
  · rename_i hword
    cases h
    simp only [attributeParts]
    split <;> simp [hword]

theorem readOptions_ok {α : Type} {read : Part → Except OptionProblem α} {as : List Attribute}
    {options : List α} (h : readOptions read as = .ok options) :
    List.Forall₂ (fun p o => read p = .ok o) (as.flatMap attributeParts) options := by
  rw [readOptions, bind_ok] at h
  obtain ⟨groups, hgroups, h⟩ := h
  cases h
  have hall := mapM_ok hgroups
  clear hgroups
  induction hall with
  | nil => exact .nil
  | @cons a group as groups ha _ ih =>
    obtain ⟨ps, hps, ha⟩ := bind_ok.mp ha
    rw [List.flatMap_cons, optionParts_ok hps, List.flatten_cons]
    exact List.rel_append (mapM_ok ha) ih

theorem memberOption_ok {p : Part} {m : MemberOption} (h : MemberOption.ofPart p = .ok m) :
    (p.behind? "rename").map suppliedName = m.renaming? := by
  obtain ⟨⟨path, rest⟩, hpath, h⟩ := bind_ok.mp h
  rw [behind?_of_path hpath]
  dsimp only at h
  split at h
  · rename_i hword
    obtain ⟨⟨name, rest'⟩, hname, h⟩ := bind_ok.mp h
    obtain ⟨rfl, rfl⟩ := closed_ok.mp h
    simp [hword, serializedName_ok hname, MemberOption.renaming?]
  -- Any other option says nothing about the name.
  case h_7 hne _ _ _ _ _ =>
    rw [if_neg hne, valued_ok h]
    rfl
  case h_5 | h_6 =>
    rw [valued_ok h]
    simp [*, MemberOption.renaming?]
  all_goals
    rw [(closed_ok.mp h).2]
    simp [*, MemberOption.renaming?]

theorem containerOption_ok {p : Part} {o : ContainerOption} (h : ContainerOption.ofPart p = .ok o) :
    ((p.behind? "rename_all").map suppliedName).join.map RenameRule.ofName? = o.rule?.map some := by
  obtain ⟨⟨path, rest⟩, hpath, h⟩ := bind_ok.mp h
  rw [behind?_of_path (mapError_ok.mp hpath)]
  dsimp only at h
  split at h
  · rename_i hword
    obtain ⟨⟨name, rest'⟩, hname, h⟩ := bind_ok.mp h
    obtain ⟨o', ho', h⟩ := bind_ok.mp h
    obtain ⟨rfl, rfl⟩ := closed_ok.mp (mapError_ok.mp h)
    rw [if_pos hword, Option.map_some, serializedName_ok (mapError_ok.mp hname)]
    cases name with
    | none =>
      cases ho'
      rfl
    | some name =>
      simp only [ContainerOption.ofRuleName] at ho'
      split at ho'
      · rename_i hrule
        cases ho'
        simp [hrule, ContainerOption.rule?]
      · cases ho'
  · rw [valued_ok (mapError_ok.mp h)]
    simp [*, ContainerOption.rule?]
  · rename_i hne _
    rw [if_neg hne, valued_ok (mapError_ok.mp h)]
    rfl

theorem rename_foldl (options : List MemberOption) :
    (options.foldl MemberOptions.add {}).rename =
      (options.filterMap MemberOption.renaming?).getLast?.join := by
  induction options using List.reverseRecOn with
  | nil => rfl
  | append_singleton options o ih =>
    rw [List.foldl_append, List.filterMap_append]
    cases o <;> simp [MemberOptions.add, MemberOption.renaming?, ih]

theorem renameAll_foldl (options : List ContainerOption) :
    (options.foldl ContainerOptions.add {}).renameAll =
      (options.filterMap ContainerOption.rule?).getLast? := by
  induction options using List.reverseRecOn with
  | nil => rfl
  | append_singleton options o ih =>
    rw [List.foldl_append, List.filterMap_append]
    cases o <;> simp [ContainerOptions.add, ContainerOption.rule?, ih]

theorem containerOptions_renameAll {as : List Attribute} {c : ContainerOptions}
    (h : containerOptions as = .ok c) :
    c.renameAll = (supplied "rename_all" as).reduceOption.getLast?.bind RenameRule.ofName? := by
  obtain ⟨options, hoptions, h⟩ := bind_ok.mp h
  cases h
  have hrules : ((supplied "rename_all" as).reduceOption.map RenameRule.ofName?) =
      (options.filterMap ContainerOption.rule?).map some := by
    simp only [supplied, List.reduceOption, List.filterMap_filterMap, List.map_filterMap]
    refine filterMap_eq (readOptions_ok hoptions) fun p o hp => ?_
    rw [← containerOption_ok hp]
    cases p.behind? "rename_all" with
    | none => rfl
    | some rest => rfl
  have hlast := congrArg List.getLast? hrules
  rw [List.getLast?_map, List.getLast?_map] at hlast
  rw [renameAll_foldl]
  cases hname : (supplied "rename_all" as).reduceOption.getLast? with
  | none =>
    rw [hname, Option.map_none, eq_comm, Option.map_eq_none_iff] at hlast
    exact hlast
  | some name =>
    rw [hname, Option.map_some] at hlast
    obtain ⟨rule, hrule, hrule'⟩ := Option.map_eq_some_iff.mp hlast.symm
    rw [hrule, Option.bind_some, ← hrule']

/-- A field or a variant has the name that its last rename gives, if it gives one. That is the name
which is given last, unless the last rename gives none and an earlier one does. -/
theorem memberOptions_rename {as : List Attribute} {o : MemberOptions}
    (h : memberOptions as = .ok o) :
    o.rename = (supplied "rename" as).getLast?.join ∧
      (o.rename = (supplied "rename" as).reduceOption.getLast? ↔
        ((supplied "rename" as).getLast? = some none → ∀ x ∈ supplied "rename" as, x = none)) := by
  obtain ⟨options, hoptions, h⟩ := bind_ok.mp h
  cases h
  have hnames : supplied "rename" as = options.filterMap MemberOption.renaming? :=
    filterMap_eq (readOptions_ok hoptions) fun p o hp => memberOption_ok (mapError_ok.mp hp)
  rw [rename_foldl, ← hnames]
  exact ⟨rfl, getLast_join_iff _⟩

def optionsOf (options : List Token) : Attribute :=
  ⟨⟨false, [⟨optionsAttribute, false⟩]⟩, .list options⟩

def renameFor (purpose name : String) : List Token :=
  [.word "rename" false,
    .group .paren [.word purpose false, .mark '=' false, .literal (.string name) name]]

/-- The name for reading is given in an attribute of its own, in front of the one for writing. -/
def namedApart : List Attribute :=
  [optionsOf (renameFor "deserialize" "in"),
    optionsOf (renameFor "serialize" "out" ++ [.mark ',' false, .word "default" false])]

theorem namedApart_rename :
    memberOptions namedApart = .ok { rename := some "out", default := true } ∧
      some "out" = (supplied "rename" namedApart).getLast?.join ∧
      some "out" = (supplied "rename" namedApart).reduceOption.getLast? := by
  have h : memberOptions namedApart = .ok { rename := some "out", default := true } := by rfl
  obtain ⟨hlast, hiff⟩ := memberOptions_rename h
  exact ⟨h, hlast, hiff.mpr (by decide)⟩

/-- A name for reading that stands behind the one for writing makes the latter be forgotten. -/
theorem name_forgotten :
    memberOptions [optionsOf (renameFor "serialize" "out" ++
        [.mark ',' false] ++ renameFor "deserialize" "in")] = .ok {} ∧
      (supplied "rename" [optionsOf (renameFor "serialize" "out" ++
        [.mark ',' false] ++ renameFor "deserialize" "in")]).reduceOption.getLast? = some "out" ∧
      memberOptions [optionsOf (renameFor "serialize" "out")] = .ok { rename := some "out" } :=
  ⟨by rfl, by decide, by rfl⟩

end Proofs.Renames

end ModelSchema
