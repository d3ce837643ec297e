import ModelSchema.Json.Decimal
import ModelSchema.Json.Node

namespace ModelSchema.Json

def isBlank (c : Char) : Bool :=
  c = ' ' || c = '\n' || c = '\t' || c = '\r'

def skipBlank (text : List Char) : List Char :=
  text.dropWhile isBlank

def unescape? : Char → Option Char
  | '\"' => some '\"'
  | '\\' => some '\\'
  | '/' => some '/'
  | 'b' => some '\x08'
  | 'f' => some '\x0c'
  | 'n' => some '\n'
  | 'r' => some '\r'
  | 't' => some '\t'
  | _ => none

def hexValue? (c : Char) : Option Nat :=
  if '0' ≤ c ∧ c ≤ '9' then some (c.toNat - 48)
  else if 'a' ≤ c ∧ c ≤ 'f' then some (c.toNat - 87)
  else if 'A' ≤ c ∧ c ≤ 'F' then some (c.toNat - 55)
  else none

def hexValues? (cs : List Char) : Option Nat :=
  cs.foldlM (fun n c => (hexValue? c).map (16 * n + ·)) 0

def isHighSurrogate (n : Nat) : Bool :=
  0xd800 ≤ n && n < 0xdc00

def isLowSurrogate (n : Nat) : Bool :=
  0xdc00 ≤ n && n < 0xe000

/-- What is wrong with an escape by number whose digits should follow: four bytes are looked at. -/
def hexFault (text : List Char) : Fault :=
  match Mark.skipBytes? 4 text with
  | some place => ⟨.badEscape, place⟩
  | none => ⟨.unfinishedString, .here []⟩

def scanString (done : List Char) : List Char → Except Fault (String × List Char)
  | [] => .error ⟨.unfinishedString, .here []⟩
  | '\"' :: rest => .ok (String.ofList done.reverse, rest)
  | '\\' :: [] => .error ⟨.unfinishedString, .here []⟩
  | '\\' :: 'u' :: a :: b :: c :: d :: rest =>
    match hexValues? [a, b, c, d] with
    | none => .error (hexFault (a :: b :: c :: d :: rest))
    | some high =>
      if isLowSurrogate high then .error ⟨.loneSurrogate, .here rest⟩
      else if isHighSurrogate high then
        match rest with
        | '\\' :: 'u' :: a' :: b' :: c' :: d' :: rest' =>
          match hexValues? [a', b', c', d'] with
          | none => .error (hexFault (a' :: b' :: c' :: d' :: rest'))
          | some low =>
            if isLowSurrogate low then
              scanString (Char.ofNat (0x10000 + (high - 0xd800) * 1024 + (low - 0xdc00)) :: done) rest'
            else .error ⟨.loneSurrogate, .here rest'⟩
        | '\\' :: 'u' :: rest' => .error (hexFault rest')
        | '\\' :: [] => .error ⟨.unfinishedString, .here []⟩
        | '\\' :: rest' => .error ⟨.unfinishedEscape, .behindNext rest'⟩
        | [] => .error ⟨.unfinishedString, .here []⟩
        | rest' => .error ⟨.unfinishedEscape, .behindNext rest'⟩
      else scanString (Char.ofNat high :: done) rest
  | '\\' :: 'u' :: rest => .error (hexFault rest)
  | '\\' :: e :: rest =>
    match unescape? e with
    | some c => scanString (c :: done) rest
    | none => .error ⟨.badEscape, .behindNext (e :: rest)⟩
  | c :: rest =>
    if c.toNat < 32 then .error ⟨.controlCharacter, .behindNext (c :: rest)⟩
    else scanString (c :: done) rest

def passString : List Char → Except Fault (List Char)
  | [] => .error ⟨.unfinishedString, .here []⟩
  | '\"' :: rest => .ok rest
  | '\\' :: [] => .error ⟨.unfinishedString, .here []⟩
  | '\\' :: 'u' :: a :: b :: c :: d :: rest =>
    if (hexValues? [a, b, c, d]).isSome then passString rest
    else .error (hexFault (a :: b :: c :: d :: rest))
  | '\\' :: 'u' :: rest => .error (hexFault rest)
  | '\\' :: e :: rest =>
    if (unescape? e).isSome then passString rest
    else .error ⟨.badEscape, .behindNext (e :: rest)⟩
  | c :: rest =>
    if c.toNat < 32 then .error ⟨.controlCharacter, .here (c :: rest)⟩ else passString rest

inductive Piece (α : Type) where
  | whole (value : α) (rest : List Char)
  | flawed (fault : Fault) (rest : List Char)
  | torn (tear : Tear)

def Piece.map {α β : Type} (f : α → β) : Piece α → Piece β
  | .whole v rest => .whole (f v) rest
  | .flawed fault rest => .flawed fault rest
  | .torn tear => .torn tear

def Piece.ofExcept {α : Type} : Except Fault (α × List Char) → Piece α
  | .ok (v, rest) => .whole v rest
  | .error fault => .torn fault.tear

def readString (text : List Char) : Piece String :=
  match scanString [] text, passString text with
  | .ok (s, rest), _ => .whole s rest
  | .error fault, .ok rest => .flawed fault rest
  | .error fault, .error passing => .torn ⟨fault, passing⟩

def scanWord (value : Scalar) : List Char → List Char → Except Fault (Scalar × List Char)
  | [], rest => .ok (value, rest)
  | _ :: _, [] => .error ⟨.unfinishedValue, .here []⟩
  | e :: es, c :: rest =>
    if c = e then scanWord value es rest else .error ⟨.unknownWord, .behindNext (c :: rest)⟩

/-- Numbers beyond 64 bits, and zero with a sign, are no integers. -/
def scalarOfNat? (negative : Bool) (n : Nat) : Option Scalar :=
  if negative then
    if n = 0 ∨ UInt64.size / 2 < n then
      (Binary64.ofUnits? true (Binary64.ofNat n)).map .float
    else some (.int (-n))
  else some (.int n)

def scalarOfNumeral? (negative : Bool) (n : Numeral) : Option Scalar :=
  match n.nat? with
  | some k => scalarOfNat? negative k
  | none => (Binary64.ofUnits? negative n.units).map .float

def scanWhole (text : List Char) : Except Fault (List Char × List Char) :=
  match text with
  | [] => .error ⟨.unfinishedNumber, .here []⟩
  | '0' :: rest =>
    if (rest.head?.map Char.isDigit).getD false then .error ⟨.badNumber, .behindNext rest⟩
    else .ok (['0'], rest)
  | c :: rest =>
    if c.isDigit then .ok (text.takeWhile Char.isDigit, text.dropWhile Char.isDigit)
    else .error ⟨.badNumber, .behindNext (c :: rest)⟩

def scanDigits (text : List Char) : Except Fault (List Char × List Char) :=
  match text.takeWhile Char.isDigit, text.dropWhile Char.isDigit with
  | [], [] => .error ⟨.unfinishedNumber, .here []⟩
  | [], rest => .error ⟨.badNumber, .behindNext rest⟩
  | ds, rest => .ok (ds, rest)

def scanFraction : List Char → Except Fault (List Char × List Char)
  | '.' :: rest => scanDigits rest
  | rest => .ok ([], rest)

def scanSign : List Char → Bool × List Char
  | '+' :: rest => (false, rest)
  | '-' :: rest => (true, rest)
  | rest => (false, rest)

def scanExponent : List Char → Except Fault (Option Exponent × List Char)
  | e :: rest =>
    if e = 'e' ∨ e = 'E' then do
      let (negative, rest) := scanSign rest
      let (digits, rest) ← scanDigits rest
      return (some ⟨negative, digits⟩, rest)
    else .ok (none, e :: rest)
  | [] => .ok (none, [])

def scanNumeral (text : List Char) : Except Fault (Numeral × List Char) := do
  let (whole, rest) ← scanWhole text
  let (fraction, rest) ← scanFraction rest
  let (exponent, rest) ← scanExponent rest
  return (⟨whole, fraction, exponent⟩, rest)

/-- What is left of the digits of an exponent behind the one that takes it beyond 32 bits. -/
def unreadDigits (n : Nat) : List Char → List Char
  | [] => []
  | c :: cs =>
    if 10 * n + (c.toNat - 48) < UInt32.size / 2 then unreadDigits (10 * n + (c.toNat - 48)) cs
    else cs

/-- A number that is out of range is a flaw, noticed where its exponent is. -/
def readNumber (negative : Bool) (text : List Char) : Piece Scalar :=
  match scanNumeral text with
  | .ok (n, rest) =>
    match scalarOfNumeral? negative n with
    | some s => .whole s rest
    | none =>
      let unread := (n.exponent.map fun e => unreadDigits 0 e.digits).getD []
      .flawed ⟨.numberTooLarge, .here (unread ++ rest)⟩ rest
  | .error fault => .torn fault.tear

def readScalar (c : Char) (rest : List Char) : Piece Scalar :=
  match c with
  | '\"' => (readString rest).map .string
  | 'n' => .ofExcept (scanWord .null ['u', 'l', 'l'] rest)
  | 't' => .ofExcept (scanWord (.bool true) ['r', 'u', 'e'] rest)
  | 'f' => .ofExcept (scanWord (.bool false) ['a', 'l', 's', 'e'] rest)
  | '-' => readNumber true rest
  | _ =>
    if c.isDigit then readNumber false (c :: rest)
    else .torn (Fault.tear ⟨.missingValue, .behindNext (c :: rest)⟩)

/-- An array or object that has been opened; what it holds so far stands last first. -/
inductive Frame where
  | array (start : Mark) (done : List Node)
  | object (start : Mark) (done : List (Key × Node))
  | member (start : Mark) (done : List (Key × Node)) (key : Key)

inductive Expected where
  | value
  | firstItem
  | nextItem
  | firstKey
  | nextKey
  | comma

structure Scanned where
  node : Node
  trailing : Option Fault

inductive Step where
  | go (frames : List Frame) (expected : Expected) (rest : List Char)
  | stop (scanned : Scanned)

namespace Step

def tearAround (tear : Tear) (node : Node) : List Frame → Node
  | [] => node
  | .array start done :: frames =>
    tearAround tear (.array start (node :: done).reverse (.torn tear)) frames
  | .object start done :: frames => tearAround tear (.object start done.reverse (.torn tear)) frames
  | .member start done key :: frames =>
    tearAround tear (.object start ((key, node) :: done).reverse (.torn tear)) frames

def breakOff (tear : Tear) (node : Node) (frames : List Frame) : Step :=
  .stop ⟨tearAround tear node frames, none⟩

def failed (frames : List Frame) (fault : Fault) : Step :=
  let tear := fault.tear
  match frames with
  | .array start done :: frames => breakOff tear (.array start done.reverse (.torn tear)) frames
  | .object start done :: frames => breakOff tear (.object start done.reverse (.torn tear)) frames
  | frames => breakOff tear (.absent tear) frames

def deliver (frames : List Frame) (node : Node) (rest : List Char) : Step :=
  match frames with
  | [] =>
    let rest := skipBlank rest
    .stop ⟨node, if rest = [] then none else some ⟨.trailingText, .behindNext rest⟩⟩
  | .array start done :: frames => .go (.array start (node :: done) :: frames) .comma rest
  | .object start done :: frames => .go (.object start done :: frames) .comma rest
  | .member start done key :: frames => .go (.object start ((key, node) :: done) :: frames) .comma rest

def value (frames : List Frame) (c : Char) (rest : List Char) : Step :=
  let start := Mark.here (c :: rest)
  if c = '[' then .go (.array start [] :: frames) .firstItem rest
  else if c = '{' then .go (.object start [] :: frames) .firstKey rest
  else
    match readScalar c rest with
    | .whole scalar rest => deliver frames (.leaf scalar start (.here rest)) rest
    | .flawed fault rest => deliver frames (.flawed fault start (.here rest)) rest
    | .torn tear => breakOff tear (.torn start tear) frames

def colon (frames : List Frame) (rest : List Char) : Step :=
  match skipBlank rest with
  | ':' :: rest => .go frames .value rest
  | [] => failed frames ⟨.unfinishedObject, .here []⟩
  | rest => failed frames ⟨.missingColon, .behindNext rest⟩

def key (start : Mark) (done : List (Key × Node)) (frames : List Frame) (rest : List Char) : Step :=
  match readString rest with
  | .whole name rest => colon (.member start done ⟨name, .here rest, none⟩ :: frames) rest
  | .flawed fault rest => colon (.member start done ⟨"", .here rest, some fault⟩ :: frames) rest
  | .torn tear => breakOff tear (.object start done.reverse (.torn tear)) frames

def closeArray (start : Mark) (done : List Node) (frames : List Frame) (rest : List Char) : Step :=
  deliver frames (.array start done.reverse (.closed (.here rest))) rest

def closeObject (start : Mark) (done : List (Key × Node)) (frames : List Frame)
    (rest : List Char) : Step :=
  deliver frames (.object start done.reverse (.closed (.here rest))) rest

def take (expected : Expected) (frames : List Frame) (text : List Char) : Step :=
  match expected, frames, text with
  | .value, _, [] => failed frames ⟨.unfinishedValue, .here []⟩
  | .value, _, c :: rest => value frames c rest
  | .firstItem, _, [] => failed frames ⟨.unfinishedArray, .here []⟩
  | .firstItem, .array start done :: outer, ']' :: rest => closeArray start done outer rest
  | .firstItem, _, c :: rest => value frames c rest
  | .nextItem, _, [] => failed frames ⟨.unfinishedValue, .here []⟩
  | .nextItem, _, ']' :: rest => failed frames ⟨.trailingItemComma, .behindNext (']' :: rest)⟩
  | .nextItem, _, c :: rest => value frames c rest
  | .firstKey, _, [] => failed frames ⟨.unfinishedObject, .here []⟩
  | .firstKey, .object start done :: outer, '}' :: rest => closeObject start done outer rest
  | .firstKey, .object start done :: outer, '\"' :: rest => key start done outer rest
  | .firstKey, _, rest => failed frames ⟨.keyNotString, .behindNext rest⟩
  | .nextKey, _, [] => failed frames ⟨.unfinishedMember, .here []⟩
  | .nextKey, _, '}' :: rest => failed frames ⟨.trailingMemberComma, .behindNext ('}' :: rest)⟩
  | .nextKey, .object start done :: outer, '\"' :: rest => key start done outer rest
  | .nextKey, _, rest => failed frames ⟨.keyNotString, .behindNext rest⟩
  | .comma, .array start done :: outer, ']' :: rest => closeArray start done outer rest
  | .comma, .array _ _ :: _, ',' :: rest => .go frames .nextItem rest
  | .comma, .array _ _ :: _, [] => failed frames ⟨.unfinishedArray, .here []⟩
  | .comma, .array _ _ :: _, rest => failed frames ⟨.missingArrayComma, .behindNext rest⟩
  | .comma, .object start done :: outer, '}' :: rest => closeObject start done outer rest
  | .comma, .object _ _ :: _, ',' :: rest => .go frames .nextKey rest
  | .comma, _, [] => failed frames ⟨.unfinishedObject, .here []⟩
  | .comma, _, rest => failed frames ⟨.missingObjectComma, .behindNext rest⟩

end Step

def scanFrom : Nat → List Frame → Expected → List Char → Scanned
  | 0, _, _, _ => ⟨.absent (Fault.tear ⟨.unfinishedValue, .here []⟩), none⟩
  | fuel + 1, frames, expected, text =>
    match Step.take expected frames (skipBlank text) with
    | .go frames expected rest => scanFrom fuel frames expected rest
    | .stop scanned => scanned

/-- Every step but the last consumes a character. -/
def scan (text : List Char) : Scanned :=
  scanFrom (text.length + 1) [] .value text

def maxDepth : Nat :=
  127

def ofText? (text : List Char) : Except Fault Json := do
  let scanned := scan text
  let v ← scanned.node.toJson (some maxDepth)
  match scanned.trailing with
  | none => return v
  | some fault => throw fault

end ModelSchema.Json
