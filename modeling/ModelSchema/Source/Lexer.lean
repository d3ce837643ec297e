import ModelSchema.Source.Token

namespace ModelSchema.Source

/-- Letters, digits and the underscore; outside ASCII every character that is not blank. -/
def isWordChar (c : Char) : Bool :=
  c.isAlphanum || c = '_' || (128 ≤ c.toNat && !Text.isBlank c)

def isWordStart (c : Char) : Bool :=
  isWordChar c && !c.isDigit

def isMarkChar (c : Char) : Bool :=
  c ∈ ['~', '!', '@', '#', '$', '%', '^', '&', '*', '-', '=', '+', '|', ';', ':', ',', '<', '.', '>',
    '/', '?']

def hexDigit? (c : Char) : Option Nat :=
  if c.isDigit then some (c.toNat - 48)
  else if 'a' ≤ c ∧ c ≤ 'f' then some (c.toNat - 87)
  else if 'A' ≤ c ∧ c ≤ 'F' then some (c.toNat - 55)
  else none

def hexNumber? (cs : List Char) : Option Nat :=
  cs.foldlM (fun n c => (hexDigit? c).map (16 * n + ·)) 0

def unescape? : List Char → Option (Option Char × List Char)
  | 'n' :: rest => some (some '\n', rest)
  | 'r' :: rest => some (some '\r', rest)
  | 't' :: rest => some (some '\t', rest)
  | '0' :: rest => some (some '\x00', rest)
  | '\\' :: rest => some (some '\\', rest)
  | '\'' :: rest => some (some '\'', rest)
  | '\"' :: rest => some (some '\"', rest)
  | 'x' :: a :: b :: rest => (hexNumber? [a, b]).map fun n => (some (Char.ofNat n), rest)
  | 'u' :: '{' :: rest =>
    (hexNumber? ((rest.takeWhile (· ≠ '}')).filter (· ≠ '_'))).map fun n =>
      (some (Char.ofNat n), (rest.dropWhile (· ≠ '}')).drop 1)
  | '\n' :: rest => some (none, rest.dropWhile Text.isBlank)
  | _ => none

def scanQuoted : Nat → List Char → List Char → Option (List Char × List Char)
  | _, _, [] => none
  | 0, _, _ => none
  | _ + 1, done, '\"' :: rest => some (done.reverse, rest)
  | fuel + 1, done, '\\' :: rest => do
    let (c, rest) ← unescape? rest
    scanQuoted fuel (c.toList ++ done) rest
  | fuel + 1, done, c :: rest => scanQuoted fuel (c :: done) rest

def quoted? (rest : List Char) : Option (List Char × List Char) :=
  scanQuoted (rest.length + 1) [] rest

def hashes : Nat → List Char → Option (List Char)
  | 0, rest => some rest
  | n + 1, '#' :: rest => hashes n rest
  | _, _ => none

def scanRaw (n : Nat) : List Char → List Char → Option (List Char × List Char)
  | _, [] => none
  | done, c :: rest =>
    match (if c = '\"' then hashes n rest else none) with
    | some rest => some (done.reverse, rest)
    | none => scanRaw n (c :: done) rest

def raw? (text : List Char) : Option (List Char × List Char) :=
  let n := (text.takeWhile (· = '#')).length
  match text.drop n with
  | '\"' :: rest => scanRaw n [] rest
  | _ => none

def char? : List Char → Option (List Char)
  | '\\' :: rest => do
    let (_, rest) ← unescape? rest
    match rest with
    | '\'' :: rest => some rest
    | _ => none
  | c :: '\'' :: rest => if c = '\'' then none else some rest
  | _ => none

/-- The sign of an exponent belongs to a number whose digits end in an `e`. -/
def signedExponent (digits rest : List Char) : List Char × List Char :=
  match digits.getLast?, rest with
  | some e, s :: rest' =>
    if (e = 'e' ∨ e = 'E') ∧ (s = '+' ∨ s = '-') ∧ digits.getD 1 '0' ≠ 'x' then
      (digits ++ s :: rest'.takeWhile isWordChar, rest'.dropWhile isWordChar)
    else (digits, rest)
  | _, _ => (digits, rest)

def scanNumber (text : List Char) : List Char × List Char :=
  let whole := text.takeWhile isWordChar
  let rest := text.dropWhile isWordChar
  match rest with
  | '.' :: c :: rest' =>
    if c = '.' ∨ isWordStart c then signedExponent whole rest
    else signedExponent (whole ++ '.' :: (c :: rest').takeWhile isWordChar)
      ((c :: rest').dropWhile isWordChar)
  | ['.'] => (whole ++ ['.'], [])
  | _ => signedExponent whole rest

def isFloat (digits : List Char) : Bool :=
  let hasBase := match digits with
    | '0' :: c :: _ => c = 'x' || c = 'o' || c = 'b'
    | _ => false
  !hasBase && (digits.contains '.' || digits.contains 'e' || digits.contains 'E' ||
    "f32".toList.isSuffixOf digits || "f64".toList.isSuffixOf digits)

/-- The rest of a comment between stars; such comments nest. -/
def skipComment : Nat → List Char → Option (List Char)
  | _, [] => none
  | depth, '/' :: '*' :: rest => skipComment (depth + 1) rest
  | 0, '*' :: '/' :: rest => some rest
  | depth + 1, '*' :: '/' :: rest => skipComment depth rest
  | depth, _ :: rest => skipComment depth rest

def before (text rest : List Char) : List Char :=
  text.take (text.length - rest.length)

def docTokens (comment : List Char) : List Token :=
  [.mark '#' false, .group .bracket
    [.word "doc" false, .mark '=' false, .literal (.string (String.ofList comment)) ""]]

def literal (text : List Char) (value : Literal) (rest : List Char) : List Token × List Char :=
  ([.literal value (String.ofList (before text rest))], rest)

def stringLiteral (text : List Char) (found : Option (List Char × List Char)) :
    Option (List Token × List Char) :=
  found.map fun (cs, rest) => literal text (.string (String.ofList cs)) rest

def otherLiteral (text : List Char) (value : Literal) (found : Option (List Char × List Char)) :
    Option (List Token × List Char) :=
  found.map fun (_, rest) => literal text value rest

def word (text : List Char) : List Token × List Char :=
  ([.word (String.ofList (text.takeWhile isWordChar)) false], text.dropWhile isWordChar)

def scanWord (text : List Char) : Option (List Token × List Char) :=
  match text with
  | 'r' :: '#' :: c :: rest =>
    if isWordStart c then
      some ([.word (String.ofList ((c :: rest).takeWhile isWordChar)) true],
        (c :: rest).dropWhile isWordChar)
    else stringLiteral text (raw? ('#' :: c :: rest))
  | 'r' :: '\"' :: rest => stringLiteral text (raw? ('\"' :: rest))
  | 'b' :: '\"' :: rest => otherLiteral text .byteString (quoted? rest)
  | 'b' :: '\'' :: rest => otherLiteral text .byte ((char? rest).map fun r => ([], r))
  | 'b' :: 'r' :: '\"' :: rest => otherLiteral text .byteString (raw? ('\"' :: rest))
  | 'b' :: 'r' :: '#' :: rest => otherLiteral text .byteString (raw? ('#' :: rest))
  | 'c' :: '\"' :: rest => otherLiteral text .zeroEndedString (quoted? rest)
  | 'c' :: 'r' :: '\"' :: rest => otherLiteral text .zeroEndedString (raw? ('\"' :: rest))
  | 'c' :: 'r' :: '#' :: rest => otherLiteral text .zeroEndedString (raw? ('#' :: rest))
  | _ => some (word text)

def scanToken (text : List Char) : Option (List Token × List Char) :=
  match text with
  | [] => none
  | '/' :: '/' :: '/' :: '/' :: rest => some ([], rest.dropWhile (· ≠ '\n'))
  | '/' :: '/' :: '/' :: rest =>
    some (docTokens (rest.takeWhile (· ≠ '\n')), rest.dropWhile (· ≠ '\n'))
  | '/' :: '/' :: rest => some ([], rest.dropWhile (· ≠ '\n'))
  | '/' :: '*' :: rest =>
    (skipComment 0 rest).map fun after =>
      match rest with
      | '*' :: '*' :: _ => ([], after)
      | '*' :: '/' :: _ => ([], after)
      | '*' :: doc => (docTokens (before doc ('*' :: '/' :: after)), after)
      | _ => ([], after)
  | '\"' :: rest => stringLiteral text (quoted? rest)
  | '\'' :: rest =>
    match char? rest with
    | some rest => some (literal text .char rest)
    | none =>
      if (rest.head?.map isWordStart).getD false then
        some ([.lifetime (String.ofList (rest.takeWhile isWordChar))], rest.dropWhile isWordChar)
      else none
  | c :: rest =>
    if Text.isBlank c then some ([], rest)
    else if c.isDigit then
      let (digits, rest) := scanNumber text
      some (literal text (if isFloat digits then .float else .int) rest)
    else if isWordStart c then scanWord text
    else if isMarkChar c then some ([.mark c ((rest.head?.map isMarkChar).getD false)], rest)
    else none

def delimiter? (bracket : Delimiter → Char) (c : Char) : Option Delimiter :=
  [.paren, .bracket, .brace].find? fun d => bracket d == c

/-- Groups that are open, with the tokens in front of each, the last one first. -/
abbrev OpenGroups := List (Delimiter × List Token)

def lexFrom : Nat → OpenGroups → List Token → List Char → Option (List Token)
  | _, [], done, [] => some done.reverse
  | _, _ :: _, _, [] => none
  | 0, _, _, _ => none
  | fuel + 1, frames, done, c :: rest =>
    match delimiter? Delimiter.opening c with
    | some d => lexFrom fuel ((d, done) :: frames) [] rest
    | none =>
      match delimiter? Delimiter.closing c with
      | some d =>
        match frames with
        | (d', outer) :: frames =>
          if d = d' then lexFrom fuel frames (.group d done.reverse :: outer) rest else none
        | [] => none
      | none =>
        match scanToken (c :: rest) with
        | some (ts, rest) => lexFrom fuel frames (ts.reverse ++ done) rest
        | none => none

def lex (text : List Char) : Option (List Token) :=
  lexFrom (text.length + 1) [] [] text

end ModelSchema.Source
