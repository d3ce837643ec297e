import ModelSchema.Proofs.Clauses

namespace ModelSchema

namespace Source

/-- The latter clauses are the former with foreign ones put in anywhere. -/
inductive Padded (known : List String) : List Clause → List Clause → Prop where
  | nil : Padded known [] []
  | keep (c : Clause) {cs ds : List Clause} (h : Padded known cs ds) :
      Padded known (c :: cs) (c :: ds)
  | insert {c : Clause} {cs ds : List Clause} (hc : c.IsForeign known) (h : Padded known cs ds) :
      Padded known cs (c :: ds)

/-- What attributes come to is the same in any arrangement of their options, as long as those with
the key `ordered` keep their order. -/
structure ArrangementFree {β : Type} (outcome : List Attribute → Except OptionProblem β)
    (ordered : String) (known : List String) : Prop where
  /-- What is accepted is an arrangement. -/
  arranged {as : List Attribute} {o : β} (h : outcome as = .ok o) : ∃ cs, Arranged as cs
  /-- An arrangement is accepted if each clause alone is. -/
  accepted_iff {as : List Attribute} {cs : List Clause} (h : Arranged as cs) :
    (∃ o, outcome as = .ok o) ↔ ∀ c ∈ cs, ∃ o, outcome c.alone = .ok o
  /-- Clauses may be spread over attributes in other ways and in another order. -/
  rearranged {as bs : List Attribute} {cs ds : List Clause} (has : Arranged as cs)
    (hbs : Arranged bs ds) (h : cs.Perm ds)
    (hordered : cs.filter (Clause.hasKey ordered) = ds.filter (Clause.hasKey ordered)) (o : β) :
    outcome as = .ok o ↔ outcome bs = .ok o
  /-- Foreign clauses make no difference. -/
  padded {as bs : List Attribute} {cs ds : List Clause} (has : Arranged as cs)
    (hbs : Arranged bs ds) (h : Padded known cs ds) (o : β) :
    outcome as = .ok o ↔ outcome bs = .ok o

def memberKeys : List String :=
  ["rename", "skip", "skip_serializing", "flatten", "skip_serializing_if", "default"]

def containerKeys : List String :=
  ["rename_all", "default"]

end Source

namespace Proofs.Arrangement

open Source Renames Clauses

section

variable {α β : Type}

theorem foldl_exchangeable_last {f : β → α → β} {p : α → Bool}
    (hf : ∀ x y b, p x = false → f (f b x) y = f (f b y) x) (xs : List α) (b : β) :
    xs.foldl f b = (xs.filter (!p ·)).foldl f ((xs.filter p).foldl f b) := by
  induction xs generalizing b with
  | nil => rfl
  | cons x xs ih =>
    rw [List.foldl_cons, ih]
    cases hx : p x with
    | true => simp [hx]
    | false =>
      have hlast : (xs.filter p).foldl f (f b x) = f ((xs.filter p).foldl f b) x :=
        List.foldl_hom (f · x) fun b y => hf x y b hx
      simp [hx, hlast]

theorem foldl_eq_of_perm_of_filter {f : β → α → β} {p : α → Bool}
    (hf : ∀ x y b, p x = false → f (f b x) y = f (f b y) x) {xs ys : List α} (h : xs.Perm ys)
    (hp : xs.filter p = ys.filter p) (b : β) : xs.foldl f b = ys.foldl f b := by
  rw [foldl_exchangeable_last hf xs, foldl_exchangeable_last hf ys, hp]
  refine (h.filter _).foldl_eq' (fun x hx y _ b => ?_) _
  exact hf x y b (by simpa using (List.mem_filter.mp hx).2)

end

/-- Parts are read alone and for what they say only, and it is the options `ordered` whose order
counts. -/
structure Lawful {α β : Type} (read : Part → Except OptionProblem α) (add : β → α → β)
    (ordered : String) (known : List String) : Prop where
  congr {p q : Part} (h : p.tokens = q.tokens) : (read p).toOption = (read q).toOption
  ne_nil {p : Part} {x : α} (h : read p = .ok x) : p.tokens ≠ []
  comm {p : Part} {x : α} (h : read p = .ok x) (hp : p.behind? ordered = none) (o : β) (y : α) :
    add (add o x) y = add (add o y) x
  foreign {c : Clause} (h : c.IsForeign known) : ∃ x, read c.part = .ok x ∧ ∀ o, add o x = o

def step {α β : Type} (read : Part → Except OptionProblem α) (add : β → α → β) (s : Option β)
    (c : Clause) : Option β :=
  s.bind fun o => (read c.part).toOption.map (add o)

section

variable {α β : Type} {read : Part → Except OptionProblem α} {add : β → α → β} {ordered : String}
  {known : List String}

theorem foldl_step_none (cs : List Clause) : cs.foldl (step read add) none = none := by
  induction cs with
  | nil => rfl
  | cons c cs ih => exact ih

theorem mapM_foldl (hread : Lawful read add ordered known) {ps : List Part} {cs : List Clause}
    (h : ps.map Part.tokens = cs.map Clause.tokens) (o : β) :
    (ps.mapM read).toOption.map (·.foldl add o) = cs.foldl (step read add) (some o) := by
  induction cs generalizing ps o with
  | nil =>
    cases List.map_eq_nil_iff.mp h
    rfl
  | cons c cs ih =>
    obtain ⟨p, ps, rfl, hp, hps⟩ := List.map_eq_cons_iff.mp h
    have hc : (read c.part).toOption = (read p).toOption := hread.congr hp.symm
    rw [List.mapM_cons, toOption_bind, List.foldl_cons, step, Option.bind_some, hc]
    cases (read p).toOption with
    | none => exact (foldl_step_none cs).symm
    | some x =>
      rw [Option.bind_some, Option.map_some, ← ih hps, toOption_bind]
      cases (ps.mapM read).toOption <;> rfl

theorem readOptions_cons (a : Attribute) (as : List Attribute) :
    readOptions read (a :: as) = do
      let ps ← optionParts a
      let xs ← ps.mapM read
      let ys ← readOptions read as
      return xs ++ ys := by
  simp [readOptions, List.mapM_cons]

theorem readOptions_foldl (hread : Lawful read add ordered known) {as : List Attribute}
    {cs : List Clause} (h : Arranged as cs) (o : β) :
    (readOptions read as).toOption.map (·.foldl add o) = cs.foldl (step read add) (some o) := by
  induction h generalizing o with
  | nil => rfl
  | @other a as cs ha _ ih =>
    have hparts : optionParts a = .ok [] := by simp [optionParts, ha]
    rw [readOptions_cons, hparts, ← ih]
    cases readOptions read as <;> rfl
  | @options ts as cs ds hts _ ih =>
    have hparts : (optionParts (optionsOf ts)).toOption = some (parts ts) := rfl
    rw [readOptions_cons, List.foldl_append, ← mapM_foldl hread (parts_of_listed hts)]
    simp only [toOption_bind, hparts, Option.bind_some]
    cases ((parts ts).mapM read).toOption with
    | none => exact (foldl_step_none ds).symm
    | some xs =>
      -- The rest starts from what the clauses of this attribute have come to.
      rw [Option.map_some, ← ih, Option.bind_some]
      cases (readOptions read as).toOption with
      | none => rfl
      | some ys => exact congrArg some List.foldl_append

theorem foldl_step_isSome (cs : List Clause) (o : β) :
    (cs.foldl (step read add) (some o)).isSome ↔ ∀ c ∈ cs, (read c.part).toOption.isSome := by
  induction cs generalizing o with
  | nil => simp
  | cons c cs ih =>
    rw [List.foldl_cons, List.forall_mem_cons, step, Option.bind_some]
    cases (read c.part).toOption with
    | none => simp [foldl_step_none]
    | some x => simp [ih]

theorem foldl_padded (hread : Lawful read add ordered known) {cs ds : List Clause}
    (h : Padded known cs ds) (s : Option β) :
    ds.foldl (step read add) s = cs.foldl (step read add) s := by
  induction h generalizing s with
  | nil => rfl
  | keep c _ ih => exact ih (step read add s c)
  | @insert c cs ds hc _ ih =>
    obtain ⟨x, hx, hadd⟩ := hread.foreign hc
    have hstep : step read add s c = s := by
      cases s with
      | none => rfl
      | some o => simp [step, hx, Except.toOption, hadd]
    rw [List.foldl_cons, hstep, ih]

theorem step_comm (hread : Lawful read add ordered known) (c d : Clause) (s : Option β)
    (hc : c.hasKey ordered = false) :
    step read add (step read add s c) d = step read add (step read add s d) c := by
  have hkey : c.part.behind? ordered = none := by simpa [Clause.hasKey] using hc
  cases s with
  | none => rfl
  | some o =>
    simp only [step, Option.bind_some]
    cases hx : read c.part with
    | error e => cases read d.part <;> rfl
    | ok x =>
      cases hy : read d.part with
      | error e => rfl
      | ok y => exact congrArg some (hread.comm hx hkey o y)

theorem exists_of_mem_mapM {ps : List Part} {xs : List α} (h : ps.mapM read = .ok xs) {p : Part}
    (hp : p ∈ ps) : ∃ x, read p = .ok x := by
  have hall := mapM_ok h
  clear h
  induction hall with
  | nil => cases hp
  | cons hx _ ih =>
    cases hp with
    | head => exact ⟨_, hx⟩
    | tail _ hp => exact ih hp

theorem exists_arranged (hread : Lawful read add ordered known) {as : List Attribute}
    {options : List α} (h : readOptions read as = .ok options) : ∃ cs, Arranged as cs := by
  induction as generalizing options with
  | nil => exact ⟨[], .nil⟩
  | cons a as ih =>
    rw [readOptions_cons] at h
    obtain ⟨ps, hps, h⟩ := bind_ok.mp h
    obtain ⟨xs, hxs, h⟩ := bind_ok.mp h
    obtain ⟨ys, hys, h⟩ := bind_ok.mp h
    obtain ⟨cs, hcs⟩ := ih hys
    cases ha : a.path.isWord optionsAttribute with
    | false => exact ⟨cs, .other ha hcs⟩
    | true =>
      obtain ⟨ts, rfl⟩ := exists_optionsOf ha hps
      cases hps
      have hne : ∀ p ∈ parts ts, p.tokens ≠ [] := by
        intro p hp
        obtain ⟨x, hx⟩ := exists_of_mem_mapM hxs hp
        exact hread.ne_nil hx
      obtain ⟨ds, hds⟩ := exists_listed ts [] (by simp) hne
      exact ⟨ds ++ cs, .options hds hcs⟩

theorem arrangementFree {outcome : List Attribute → Except OptionProblem β}
    (hread : Lawful read add ordered known) (empty : β)
    (houtcome : ∀ as, outcome as = (readOptions read as).map (·.foldl add empty)) :
    ArrangementFree outcome ordered known := by
  have hfold {as : List Attribute} {cs : List Clause} (h : Arranged as cs) (o : β) :
      outcome as = .ok o ↔ cs.foldl (step read add) (some empty) = some o := by
    rw [← toOption_eq_some, houtcome, toOption_map, readOptions_foldl hread h]
  have haccepted {as : List Attribute} {cs : List Clause} (h : Arranged as cs) :
      (∃ o, outcome as = .ok o) ↔ ∀ c ∈ cs, (read c.part).toOption.isSome := by
    simp only [hfold h, ← Option.isSome_iff_exists, foldl_step_isSome]
  have halone (c : Clause) : Arranged c.alone [c] := .options (.last c) .nil
  constructor
  case arranged =>
    intro as o h
    rw [houtcome, map_eq_ok] at h
    obtain ⟨options, hoptions, _⟩ := h
    exact exists_arranged hread hoptions
  case accepted_iff =>
    intro as cs h
    rw [haccepted h]
    simp only [haccepted (halone _), List.mem_singleton, forall_eq]
  case rearranged =>
    intro as bs cs ds has hbs h hordered o
    rw [hfold has, hfold hbs, foldl_eq_of_perm_of_filter (step_comm hread · · ·) h hordered]
  case padded =>
    intro as bs cs ds has hbs h o
    rw [hfold has, hfold hbs, foldl_padded hread h]

end

theorem add_comm_of_renaming? {x : MemberOption} (hx : x.renaming? = none) (o : MemberOptions)
    (y : MemberOption) : (o.add x).add y = (o.add y).add x := by
  cases x with
  | rename name => cases hx
  | _ => cases y <;> rfl

theorem add_comm_of_rule? {x : ContainerOption} (hx : x.rule? = none) (o : ContainerOptions)
    (y : ContainerOption) : (o.add x).add y = (o.add y).add x := by
  cases x with
  | renameAll rule => cases hx
  | _ => cases y <;> rfl

theorem lawful_member :
    Lawful (fun p => (MemberOption.ofPart p).mapError .malformed) MemberOptions.add "rename"
      memberKeys where
  congr h := by rw [toOption_mapError, toOption_mapError, memberOption_congr h]
  ne_nil h := by
    obtain ⟨x, hpath, _⟩ := bind_ok.mp (mapError_ok.mp h)
    exact path_ne_nil hpath
  comm h hp := by
    have hrenaming := memberOption_ok (mapError_ok.mp h)
    rw [hp, Option.map_none] at hrenaming
    exact add_comm_of_renaming? hrenaming.symm
  foreign h := by
    obtain ⟨path, value, hpath, hknown, hvalued⟩ := foreign_reads h
    refine ⟨.other, ?_, fun o => rfl⟩
    simp only [memberKeys, List.forall_mem_cons] at hknown
    rw [mapError_ok, MemberOption.ofPart, hpath]
    dsimp only [bind, Except.bind]
    split
    case h_7 => exact hvalued _
    -- In the other cases the path is one of the keys.
    all_goals simp [*] at hknown

theorem lawful_container :
    Lawful ContainerOption.ofPart ContainerOptions.add "rename_all" containerKeys where
  congr := containerOption_congr
  ne_nil h := by
    obtain ⟨x, hpath, _⟩ := bind_ok.mp h
    exact path_ne_nil (mapError_ok.mp hpath)
  comm h hp := by
    have hrule := containerOption_ok h
    rw [hp] at hrule
    exact add_comm_of_rule? (by simpa using hrule.symm)
  foreign h := by
    obtain ⟨path, value, hpath, hknown, hvalued⟩ := foreign_reads h
    refine ⟨.other, ?_, fun o => rfl⟩
    simp only [containerKeys, List.forall_mem_cons] at hknown
    rw [ContainerOption.ofPart, hpath]
    dsimp only [bind, Except.bind, Except.mapError]
    split
    case h_3 => rw [hvalued]
    -- In the other cases the path is one of the keys.
    all_goals simp [*] at hknown

/-- The options of a field or a variant may be arranged in any way that keeps the order of the
renames, and those of a declaration in any way that keeps the order of the rules. -/
theorem options_arrangementFree :
    ArrangementFree memberOptions "rename" memberKeys ∧
      ArrangementFree containerOptions "rename_all" containerKeys := by
  constructor
  · refine arrangementFree lawful_member {} fun as => ?_
    rw [memberOptions]
    cases readOptions _ as <;> rfl
  · refine arrangementFree lawful_container {} fun as => ?_
    rw [containerOptions]
    cases readOptions _ as <;> rfl

def renameClause (purpose name : String) : Clause where
  tokens := renameFor purpose name
  tokens_ne_nil := by simp [renameFor]
  no_comma := by simp [renameFor, Token.isMark]

def textClause (key text : String) : Clause where
  tokens := [.word key false, .mark '=' false, .literal (.string text) text]
  tokens_ne_nil := by simp
  no_comma := by simp [Token.isMark]

def wordClause (key : String) : Clause where
  tokens := [.word key false]
  tokens_ne_nil := by simp
  no_comma := by simp [Token.isMark]

theorem textClause_isForeign {known : List String} {key : String} (h : key ∉ known)
    (text : String) : (textClause key text).IsForeign known := by
  refine ⟨⟨false, [⟨key, false⟩]⟩, [.mark '=' false, .literal (.string text) text], by simp, ?_,
    .literal false (.plain _ _), rfl⟩
  rintro k hk hkey
  cases hkey
  exact h hk

def namedTogether : List Attribute :=
  [⟨⟨false, [⟨"doc", false⟩]⟩, .none⟩,
    optionsOf ([.word "default" false, .mark ',' false] ++ renameFor "deserialize" "in" ++
      [.mark ',' false, .word "alias" false, .mark '=' false, .literal (.string "old") "old",
        .mark ',' false] ++ renameFor "serialize" "out" ++ [.mark ',' false])]

def taggedRule : List Attribute :=
  (textClause "tag" "type").alone ++ (textClause "rename_all" "camelCase").alone

theorem namedTogether_arranged :
    memberOptions namedTogether = .ok { rename := some "out", default := true } ∧
      (∃ o, memberOptions (renameClause "serialize" "out").alone = .ok o) ∧
      containerOptions taggedRule = .ok { renameAll := some .camel } := by
  let first := renameClause "deserialize" "in"
  let second := renameClause "serialize" "out"
  let last := wordClause "default"
  have hread : memberOptions namedApart = .ok { rename := some "out", default := true } := by rfl
  have hapart : Arranged namedApart [first, second, last] :=
    .options (.last first) (.options (.cons second false (.last last)) .nil)
  have hturned : Arranged (last.alone ++ first.alone ++ second.alone) [last, first, second] :=
    .options (.last last) (.options (.last first) (.options (.last second) .nil))
  have htogether : Arranged namedTogether [last, first, textClause "alias" "old", second] :=
    .other (by decide) (.options (.cons last false (.cons first false
      (.cons (textClause "alias" "old") false (.cons second false .nil)))) .nil)
  have hpadded : Padded memberKeys [last, first, second]
      [last, first, textClause "alias" "old", second] :=
    .keep _ (.keep _ (.insert (textClause_isForeign (by decide) _) (.keep _ .nil)))
  have hperm : [first, second, last].Perm [last, first, second] :=
    @List.perm_append_comm _ [first, second] [last]
  obtain ⟨member, container⟩ := options_arrangementFree
  refine ⟨?_, ?_, ?_⟩
  · exact (member.padded hturned htogether hpadded _).mp
      ((member.rearranged hapart hturned hperm (by rfl) _).mp hread)
  · exact (member.accepted_iff hapart).mp ⟨_, hread⟩ second (by simp)
  · have hrule : Arranged (textClause "rename_all" "camelCase").alone
        [textClause "rename_all" "camelCase"] := .options (.last _) .nil
    have htagged : Arranged taggedRule
        [textClause "tag" "type", textClause "rename_all" "camelCase"] :=
      .options (.last _) (.options (.last _) .nil)
    have hpadded : Padded containerKeys [textClause "rename_all" "camelCase"]
        [textClause "tag" "type", textClause "rename_all" "camelCase"] :=
      .insert (textClause_isForeign (by decide) _) (.keep _ .nil)
    exact (container.padded hrule htagged hpadded _).mp (by rfl)

end Proofs.Arrangement

end ModelSchema
