import ModelSchema.Source.Fault

namespace ModelSchema.Source

def Token.isMark (c : Char) : Token → Bool
  | .mark d _ => c == d
  | _ => false

def Token.isWord (s : String) : Token → Bool
  | .word name isRaw => !isRaw && name == s
  | _ => false

def Token.isIdentifier : Token → Bool
  | .word name isRaw => isRaw || !keywords.contains name
  | _ => false

def Token.isSegment (t : Token) : Bool :=
  t.isIdentifier || pathKeywords.any t.isWord

def begins (p : Token → Bool) (ts : List Token) : Bool :=
  (ts.head?.map p).getD false

def afterColons? : List Token → Option (List Token)
  | .mark ':' true :: .mark ':' _ :: rest => some rest
  | _ => none

/-- What follows the angle bracket that closes the innermost of so many open ones and one more. The
head of an arrow closes nothing. -/
def afterAngles? : Nat → List Token → Option (List Token)
  | _, [] => none
  | depth, .mark '-' true :: .mark '>' _ :: rest => afterAngles? depth rest
  | depth, .mark '<' _ :: rest => afterAngles? (depth + 1) rest
  | 0, .mark '>' _ :: rest => some rest
  | depth + 1, .mark '>' _ :: rest => afterAngles? depth rest
  | depth, _ :: rest => afterAngles? depth rest

def afterLiteral? : List Token → Option (List Token)
  | .literal _ _ :: rest => some rest
  | .mark '-' _ :: .literal v _ :: rest => if v = .int ∨ v = .float then some rest else none
  | t :: rest => if t.isWord "true" || t.isWord "false" then some rest else none
  | [] => none

abbrev Reader := StateT (List Token) (Except Fault)

namespace Reader

def fail {α : Type} (what : Expected) : Reader α :=
  fun ts => .error (.expected what ts.isEmpty)

def mark (c : Char) : Reader Unit
  | t :: rest => if t.isMark c then .ok ((), rest) else .error (.expectedMark c)
  | [] => .error (.expectedMark c)

def skip (p : Token → Bool) : Reader Bool :=
  fun ts => .ok (begins p ts, if begins p ts then ts.drop 1 else ts)

def bracket (d : Delimiter) (what : Expected) : Reader (List Token)
  | ts@(.group d' inner :: rest) =>
    if d = d' then .ok (inner, rest) else .error (.expected what ts.isEmpty)
  | ts => .error (.expected what ts.isEmpty)

def angles : Reader Unit :=
  fun ts =>
    match afterAngles? 0 ts with
    | some rest => .ok ((), rest)
    | none => .error (.expectedMark ',')

def extent (r : Reader Unit) : Reader (List Token) := do
  let ts ← get
  r
  return ts.take (ts.length - (← get).length)

/-- At most so many things with commas between them, and maybe behind them, to the end. -/
def separated {α : Type} (item : Reader α) : Nat → Reader (List α)
  | 0 => return []
  | n + 1 => do
    if (← get).isEmpty then return []
    let a ← item
    if (← get).isEmpty then return [a]
    mark ','
    return a :: (← separated item n)

def all {α : Type} (r : Reader α) (ts : List Token) : Except Fault α := do
  let (a, rest) ← r ts
  if rest.isEmpty then return a
  throw .leftover

def list {α : Type} (item : Reader α) (ts : List Token) : Except Fault (List α) :=
  all (separated item (ts.length + 1)) ts

end Reader

end ModelSchema.Source
