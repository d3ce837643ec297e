import ModelSchema.Json

namespace ModelSchema.Json

inductive Problem where
  | unfinishedValue
  | unfinishedNumber
  | unfinishedArray
  | unfinishedObject
  | unfinishedMember
  | unfinishedString
  | missingColon
  | missingArrayComma
  | missingObjectComma
  | unknownWord
  | missingValue
  | badEscape
  | badNumber
  | numberTooLarge
  | controlCharacter
  | keyNotString
  | loneSurrogate
  | unfinishedEscape
  | trailingItemComma
  | trailingMemberComma
  | trailingText
  | tooDeep
  deriving DecidableEq, Repr

def Problem.message : Problem → String
  | .unfinishedValue => "EOF while parsing a value"
  | .unfinishedNumber => "EOF while parsing a value"
  | .unfinishedArray => "EOF while parsing a list"
  | .unfinishedObject => "EOF while parsing an object"
  | .unfinishedMember => "EOF while parsing a value"
  | .unfinishedString => "EOF while parsing a string"
  | .missingColon => "expected `:`"
  | .missingArrayComma => "expected `,` or `]`"
  | .missingObjectComma => "expected `,` or `\x7d`"
  | .unknownWord => "expected ident"
  | .missingValue => "expected value"
  | .badEscape => "invalid escape"
  | .badNumber => "invalid number"
  | .numberTooLarge => "number out of range"
  | .controlCharacter => "control character (\\u0000-\\u001F) found while parsing a string"
  | .keyNotString => "key must be a string"
  | .loneSurrogate => "lone leading surrogate in hex escape"
  | .unfinishedEscape => "unexpected end of hex escape"
  | .trailingItemComma => "trailing comma"
  | .trailingMemberComma => "trailing comma"
  | .trailingText => "trailing characters"
  | .tooDeep => "recursion limit exceeded"

/-- A place in a text, given by what is left of it. The place may be so many bytes `ahead`, inside
or behind the next character, which has been looked at but not consumed. -/
structure Mark where
  rest : List Char
  ahead : Nat
  deriving DecidableEq, Inhabited, Repr

namespace Mark

def here (rest : List Char) : Mark :=
  ⟨rest, 0⟩

def behindNext (rest : List Char) : Mark :=
  ⟨rest, 1⟩

def skipBytes? : Nat → List Char → Option Mark
  | 0, text => some (here text)
  | _ + 1, [] => none
  | n + 1, c :: rest =>
    if c.utf8Size ≤ n + 1 then skipBytes? (n + 1 - c.utf8Size) rest else some ⟨c :: rest, n + 1⟩

def nowhere : Mark :=
  here []

def begins (c : Char) (m : Mark) : Bool :=
  m.rest.head? == some c

end Mark

structure Position where
  line : Nat
  column : Nat
  deriving DecidableEq, Repr

def bytes : List Char → Nat
  | [] => 0
  | c :: cs => c.utf8Size + bytes cs

/-- Lines count from one. The column is the number of bytes since the line began. -/
def Mark.position (text : List Char) (m : Mark) : Position :=
  let consumed := text.take (text.length - m.rest.length)
  let upTo (cs : List Char) (more : Nat) : Position :=
    ⟨cs.count '\n' + 1, bytes (cs.reverse.takeWhile (· ≠ '\n')) + more⟩
  match m.rest with
  | [] => upTo consumed 0
  | '\n' :: _ => upTo (consumed ++ List.replicate m.ahead '\n') 0
  | _ => upTo consumed m.ahead

def Position.text (p : Position) : String :=
  " at line " ++ toString p.line ++ " column " ++ toString p.column

structure Fault where
  problem : Problem
  place : Mark
  deriving DecidableEq, Repr

def Fault.passing (f : Fault) : Fault :=
  match f.problem with
  | .unfinishedNumber => { f with problem := .badNumber }
  | .unfinishedMember => { f with problem := .unfinishedObject }
  | .trailingItemComma => { f with problem := .missingValue }
  | .trailingMemberComma => { f with problem := .keyNotString }
  | _ => f

/-- Where a text breaks off, with what is noticed by a reader who takes the value and by one who
passes over it. -/
structure Tear where
  fault : Fault
  passing : Fault
  deriving DecidableEq, Repr

def Fault.tear (f : Fault) : Tear :=
  ⟨f, f.passing⟩

inductive Scalar where
  | null
  | bool (value : Bool)
  | int (value : Int)
  | float (value : Binary64)
  | string (value : String)
  deriving DecidableEq, Inhabited, Repr

def Scalar.toJson : Scalar → Json
  | .null => .null
  | .bool b => .bool b
  | .int n => .int n
  | .float x => .float x
  | .string s => .string s

/-- The name of a member. With a flaw it is no name, but may be passed over. -/
structure Key where
  name : String
  stop : Mark
  flaw : Option Fault := none
  deriving DecidableEq, Repr

def Key.check (k : Key) : Except Fault Unit :=
  match k.flaw with
  | none => .ok ()
  | some f => .error f

inductive Ending where
  | closed (stop : Mark)
  | torn (tear : Tear)
  deriving Repr

inductive Node where
  | leaf (scalar : Scalar) (start stop : Mark)
  /-- Stands for no value, but may be passed over. -/
  | flawed (fault : Fault) (start stop : Mark)
  | array (start : Mark) (items : List Node) (ending : Ending)
  | object (start : Mark) (members : List (Key × Node)) (ending : Ending)
  | torn (start : Mark) (tear : Tear)
  | absent (tear : Tear)
  deriving Repr

mutual

def Node.ofJson : Json → Node
  | .null => .leaf .null .nowhere .nowhere
  | .bool b => .leaf (.bool b) .nowhere .nowhere
  | .int n => .leaf (.int n) .nowhere .nowhere
  | .float x => .leaf (.float x) .nowhere .nowhere
  | .string s => .leaf (.string s) .nowhere .nowhere
  | .array xs => .array .nowhere (nodesOfItems xs) (.closed .nowhere)
  | .object ms => .object .nowhere (nodesOfMembers ms) (.closed .nowhere)

def nodesOfItems : List Json → List Node
  | [] => []
  | x :: xs => Node.ofJson x :: nodesOfItems xs

def nodesOfMembers : List (String × Json) → List (Key × Node)
  | [] => []
  | (k, v) :: ms => ({ name := k, stop := .nowhere }, Node.ofJson v) :: nodesOfMembers ms

end

def Ending.check : Ending → Except Fault Unit
  | .closed _ => .ok ()
  | .torn t => .error t.fault

abbrev Limit := Option Nat

def Limit.inside (limit : Limit) : Limit :=
  limit.map (· - 1)

def Limit.check (limit : Limit) (start : Mark) : Except Fault Unit :=
  if limit = some 0 then .error ⟨.tooDeep, .behindNext start.rest⟩ else .ok ()

mutual

/-- The value of a node that keeps to the limit. A repeated key keeps its first place and its last
value. The fault reported is the first in the order of the text. -/
def Node.toJson (limit : Limit) : Node → Except Fault Json
  | .leaf s _ _ => .ok s.toJson
  | .flawed f _ _ => .error f
  | .torn _ t => .error t.fault
  | .absent t => .error t.fault
  | .array start items ending => do
    limit.check start
    let xs ← itemsToJson limit.inside items
    ending.check
    return .array xs
  | .object start members ending => do
    limit.check start
    let ms ← membersToJson limit.inside members
    ending.check
    return .object (Entries.ofList ms)

def itemsToJson (limit : Limit) : List Node → Except Fault (List Json)
  | [] => .ok []
  | x :: xs => do
    let v ← x.toJson limit
    return v :: (← itemsToJson limit xs)

def membersToJson (limit : Limit) : List (Key × Node) → Except Fault (List (String × Json))
  | [] => .ok []
  | (k, x) :: ms => do
    k.check
    let v ← x.toJson limit
    return (k.name, v) :: (← membersToJson limit ms)

end

end ModelSchema.Json
