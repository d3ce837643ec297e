import ModelSchema.Proofs.Renames

namespace ModelSchema

namespace Source

/-- An option as it is written. A comma outside of brackets would end it. -/
structure Clause where
  tokens : List Token
  tokens_ne_nil : tokens ≠ []
  no_comma : ∀ t ∈ tokens, t.isMark ',' = false

/-- The clauses of a list, with commas between them and maybe behind the last one. -/
inductive Listed : List Token → List Clause → Prop where
  | nil : Listed [] []
  | last (c : Clause) : Listed c.tokens [c]
  | cons (c : Clause) (isJoint : Bool) {ts : List Token} {cs : List Clause} (h : Listed ts cs) :
      Listed (c.tokens ++ .mark ',' isJoint :: ts) (c :: cs)

open Proofs.Renames (optionsOf)

/-- The clauses that attributes hold, in order. Attributes for other purposes hold none. -/
inductive Arranged : List Attribute → List Clause → Prop where
  | nil : Arranged [] []
  | other {a : Attribute} {as : List Attribute} {cs : List Clause}
      (ha : a.path.isWord optionsAttribute = false) (h : Arranged as cs) : Arranged (a :: as) cs
  | options {ts : List Token} {as : List Attribute} {cs ds : List Clause} (hts : Listed ts cs)
      (h : Arranged as ds) : Arranged (optionsOf ts :: as) (cs ++ ds)

def Identifier.token (i : Identifier) : Token :=
  .word i.name i.isRaw

def doubleColon : List Token :=
  [.mark ':' true, .mark ':' false]

def furtherNames (names : List Identifier) : List Token :=
  names.flatMap fun i => doubleColon ++ [i.token]

def Path.tokens (p : Path) : List Token :=
  (if p.isGlobal then doubleColon else []) ++
    match p.names with
    | [] => []
    | i :: names => i.token :: furtherNames names

inductive IsLiteral : List Token → Prop where
  | plain (v : Literal) (text : String) : IsLiteral [.literal v text]
  | negative (isJoint : Bool) (v : Literal) (text : String) (hv : v = .int ∨ v = .float) :
      IsLiteral [.mark '-' isJoint, .literal v text]
  | truth (name : String) (h : name = "true" ∨ name = "false") : IsLiteral [.word name false]

inductive IsValue : List Token → Prop where
  | nothing : IsValue []
  | literal (isJoint : Bool) {ts : List Token} (h : IsLiteral ts) :
      IsValue (.mark '=' isJoint :: ts)
  | list (inner : List Token) : IsValue [.group .paren inner]

namespace Clause

def part (c : Clause) : Part :=
  ⟨c.tokens, true⟩

def alone (c : Clause) : List Attribute :=
  [optionsOf c.tokens]

def hasKey (key : String) (c : Clause) : Bool :=
  (c.part.behind? key).isSome

/-- The clause has a path that is none of the words `known`, and a value. -/
def IsForeign (known : List String) (c : Clause) : Prop :=
  ∃ (path : Path) (value : List Token), path.names ≠ [] ∧ (∀ key ∈ known, path.word? ≠ some key) ∧
    IsValue value ∧ c.tokens = path.tokens ++ value

end Clause

end Source

namespace Proofs.Clauses

open Source Renames

section

variable {α β ε : Type}

theorem toOption_eq_some {x : Except ε α} {a : α} : x.toOption = some a ↔ x = .ok a := by
  cases x <;> simp [Except.toOption]

theorem toOption_bind (x : Except ε α) (f : α → Except ε β) :
    (x >>= f).toOption = x.toOption.bind fun a => (f a).toOption := by
  cases x <;> rfl

theorem toOption_map (x : Except ε α) (f : α → β) : (x.map f).toOption = x.toOption.map f := by
  cases x <;> rfl

theorem toOption_mapError {ε' : Type} (x : Except ε α) (f : ε → ε') :
    (x.mapError f).toOption = x.toOption := by
  cases x <;> rfl

end

theorem path_congr {p q : Part} (h : p.tokens = q.tokens) :
    p.path.toOption = q.path.toOption := by
  unfold Part.path
  dsimp only
  rw [h]
  split
  · rfl
  · split
    · rfl
    -- Whether this is the end of the list decides between two errors.
    · split <;> split <;> rfl
  · rfl
  · rfl

section

variable {α : Type} (p q : Part) (ts : List Token)

theorem stringValue_congr : (p.stringValue ts).toOption = (q.stringValue ts).toOption := by
  unfold Part.stringValue
  split <;> rfl

theorem skipValue_congr : (p.skipValue ts).toOption = (q.skipValue ts).toOption := by
  unfold Part.skipValue
  split
  · split <;> rfl
  · rfl
  · rfl

theorem valued_congr (a : α) : (p.valued a ts).toOption = (q.valued a ts).toOption := by
  simp only [Part.valued, toOption_bind, skipValue_congr p q]

theorem serializedName_congr :
    (p.serializedName ts).toOption = (q.serializedName ts).toOption := by
  unfold Part.serializedName
  split
  · rw [toOption_map, toOption_map, stringValue_congr p q]
  · rfl
  · rfl

end

theorem memberOption_congr {p q : Part} (h : p.tokens = q.tokens) :
    (MemberOption.ofPart p).toOption = (MemberOption.ofPart q).toOption := by
  unfold MemberOption.ofPart
  simp only [toOption_bind, path_congr h]
  congr 1
  funext x
  split <;> simp only [toOption_bind, serializedName_congr p q, valued_congr p q]

theorem containerOption_congr {p q : Part} (h : p.tokens = q.tokens) :
    (ContainerOption.ofPart p).toOption = (ContainerOption.ofPart q).toOption := by
  unfold ContainerOption.ofPart
  simp only [toOption_bind, toOption_mapError, path_congr h]
  congr 1
  funext x
  split <;> simp only [toOption_bind, toOption_mapError, serializedName_congr p q, valued_congr p q]

theorem isMark_iff {c : Char} {t : Token} : t.isMark c ↔ ∃ isJoint, t = .mark c isJoint := by
  cases t with
  | mark d isJoint => simp [Token.isMark, eq_comm (a := c)]
  | _ => simp [Token.isMark]

theorem parts_append_comma {ts : List Token} (h : ∀ t ∈ ts, t.isMark ',' = false) (isJoint : Bool)
    (rest : List Token) :
    parts (ts ++ .mark ',' isJoint :: rest) = ⟨ts, false⟩ :: parts rest := by
  induction ts with
  | nil => rfl
  | cons t ts ih =>
    rw [List.forall_mem_cons] at h
    simp [parts, h.1, ih h.2]

theorem parts_of_no_comma {ts : List Token} (h : ∀ t ∈ ts, t.isMark ',' = false) (hne : ts ≠ []) :
    parts ts = [⟨ts, true⟩] := by
  induction ts with
  | nil => exact absurd rfl hne
  | cons t ts ih =>
    rw [List.forall_mem_cons] at h
    cases ts with
    | nil => simp [parts, h.1]
    | cons t' ts =>
      have hparts := ih h.2 (List.cons_ne_nil t' ts)
      rw [parts, hparts]
      simp [h.1]

theorem parts_of_listed {ts : List Token} {cs : List Clause} (h : Listed ts cs) :
    (parts ts).map Part.tokens = cs.map Clause.tokens := by
  induction h with
  | nil => rfl
  | last c => simp [parts_of_no_comma c.no_comma c.tokens_ne_nil]
  | cons c isJoint _ ih => simp [parts_append_comma c.no_comma, ih]

theorem exists_listed (ts before : List Token) (hbefore : ∀ t ∈ before, t.isMark ',' = false)
    (h : ∀ p ∈ parts (before ++ ts), p.tokens ≠ []) : ∃ cs, Listed (before ++ ts) cs := by
  induction ts generalizing before with
  | nil =>
    rw [List.append_nil] at h ⊢
    by_cases hne : before = []
    · exact ⟨[], hne ▸ .nil⟩
    · exact ⟨[⟨before, hne, hbefore⟩], .last ⟨before, hne, hbefore⟩⟩
  | cons t ts ih =>
    cases ht : t.isMark ',' with
    | false =>
      have hmore : ∀ t' ∈ before ++ [t], t'.isMark ',' = false := by
        simpa [or_imp, forall_and, ht] using hbefore
      simpa using ih (before ++ [t]) hmore (by simpa using h)
    | true =>
      obtain ⟨isJoint, rfl⟩ := isMark_iff.mp ht
      rw [parts_append_comma hbefore, List.forall_mem_cons] at h
      obtain ⟨cs, hcs⟩ := ih [] (by simp) h.2
      exact ⟨_, .cons ⟨before, h.1, hbefore⟩ isJoint hcs⟩

theorem path_ne_nil {p : Part} {x : Path × List Token} (h : p.path = .ok x) : p.tokens ≠ [] := by
  intro hp
  unfold Part.path at h
  rw [hp] at h
  cases hfinal : p.isFinal <;> simp [Reader.path?, afterColons?, afterLiteral?, hfinal] at h

theorem length_furtherNames (names : List Identifier) :
    (furtherNames names).length = 3 * names.length := by
  simp [furtherNames, doubleColon, List.length_flatMap, Nat.mul_comm]

theorem moreNames_furtherNames {q : Token → Bool} {what : Expected} {value : List Token}
    (hq : ∀ name isRaw, q (.word name isRaw)) (hvalue : afterColons? value = none)
    (names : List Identifier) {n : Nat} (hn : names.length ≤ n) :
    Reader.moreNames q what n (furtherNames names ++ value) = .ok (names, value) := by
  induction names generalizing n with
  | nil =>
    cases n with
    | zero => rfl
    | succ n => simp [Reader.moreNames, furtherNames, hvalue]
  | cons i names ih =>
    cases n with
    | zero => simp at hn
    | succ n =>
      have htokens : furtherNames (i :: names) ++ value =
          doubleColon ++ .word i.name i.isRaw :: (furtherNames names ++ value) := rfl
      rw [htokens, Reader.moreNames]
      simp only [doubleColon, List.cons_append, List.nil_append, afterColons?, hq, if_true]
      exact reader_map_ok.mpr ⟨names, ih (by simpa using hn), rfl⟩

theorem path?_tokens {q : Token → Bool} {what : Expected} {path : Path} {value : List Token}
    (hq : ∀ name isRaw, q (.word name isRaw)) (hvalue : afterColons? value = none)
    (hnames : path.names ≠ []) :
    Reader.path? q what (path.tokens ++ value) = .ok (some path, value) := by
  obtain ⟨isGlobal, names⟩ := path
  obtain ⟨i, names, rfl⟩ := List.exists_cons_of_ne_nil hnames
  have hlength : names.length ≤ (furtherNames names ++ value).length := by
    rw [List.length_append, length_furtherNames]
    omega
  have hmore : Reader.moreNames q what (furtherNames names ++ value).length
      (furtherNames names ++ value) = .ok (names, value) :=
    moreNames_furtherNames hq hvalue names hlength
  let ts := Path.tokens ⟨isGlobal, i :: names⟩ ++ value
  have hcolons : (afterColons? ts).isSome = isGlobal ∧
      (afterColons? ts).getD ts = i.token :: (furtherNames names ++ value) := by
    cases isGlobal <;> exact ⟨rfl, rfl⟩
  show Reader.path? q what ts = _
  simp only [Reader.path?, hcolons, Identifier.token, hq, if_true]
  exact reader_map_ok.mpr ⟨names, hmore, rfl⟩

theorem path_tokens {p : Part} {path : Path} {value : List Token} (hnames : path.names ≠ [])
    (hvalue : afterColons? value = none) (hp : p.tokens = path.tokens ++ value) :
    p.path = .ok (path, value) := by
  unfold Part.path
  rw [hp, path?_tokens (fun _ _ => rfl) hvalue hnames]

theorem skipValue_of_isValue {value : List Token} (h : IsValue value) (p : Part) :
    p.skipValue value = .ok [] := by
  cases h with
  | nothing => rfl
  | literal isJoint h =>
    cases h with
    | plain v text => rfl
    | negative isJoint v text hv => simp [Part.skipValue, afterLiteral?, hv]
    | truth name hname => simp [Part.skipValue, afterLiteral?, Token.isWord, hname]
  | list inner => rfl

theorem foreign_reads {known : List String} {c : Clause} (h : c.IsForeign known) :
    ∃ path value, c.part.path = .ok (path, value) ∧ (∀ key ∈ known, path.word? ≠ some key) ∧
      ∀ {α : Type} (a : α), c.part.valued a value = .ok a := by
  obtain ⟨path, value, hnames, hknown, hvalue, htokens⟩ := h
  have hcolons : afterColons? value = none := by
    cases hvalue with
    | nothing => rfl
    | literal isJoint h => simp [afterColons?]
    | list inner => rfl
  refine ⟨path, value, path_tokens hnames hcolons htokens, hknown, fun a => ?_⟩
  rw [Part.valued, skipValue_of_isValue hvalue]
  rfl

theorem isWord_iff {path : Path} {name : String} :
    path.isWord name ↔ path = ⟨false, [⟨name, false⟩]⟩ := by
  simp only [Path.isWord, beq_iff_eq]
  constructor
  · intro h
    unfold Path.word? at h
    split at h
    · cases h
      rfl
    · cases h
  · rintro rfl
    rfl

theorem exists_optionsOf {a : Attribute} {ps : List Part}
    (ha : a.path.isWord optionsAttribute) (h : optionParts a = .ok ps) :
    ∃ ts, a = optionsOf ts := by
  obtain ⟨path, argument⟩ := a
  cases isWord_iff.mp ha
  cases argument with
  | list inner => exact ⟨inner, rfl⟩
  | _ => cases h

end Proofs.Clauses

end ModelSchema
