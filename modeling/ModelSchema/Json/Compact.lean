import ModelSchema.Json.Quoted
import ModelSchema.Json.Decimal

namespace ModelSchema.Json

def intText (n : Int) : List Char :=
  match n with
  | .ofNat k => Nat.toDigits 10 k
  | .negSucc k => '-' :: Nat.toDigits 10 (k + 1)

mutual

def compactOnto : Json → List Char → List Char
  | .null, rest => 'n' :: 'u' :: 'l' :: 'l' :: rest
  | .bool true, rest => 't' :: 'r' :: 'u' :: 'e' :: rest
  | .bool false, rest => 'f' :: 'a' :: 'l' :: 's' :: 'e' :: rest
  | .int n, rest => intText n ++ rest
  | .float x, rest => x.text ++ rest
  | .string s, rest => quoted s rest
  | .array [], rest => '[' :: ']' :: rest
  | .array (x :: xs), rest => '[' :: compactOnto x (compactItems xs rest)
  | .object [], rest => '{' :: '}' :: rest
  | .object ((k, v) :: ms), rest =>
    '{' :: quoted k (':' :: compactOnto v (compactMembers ms rest))

def compactItems : List Json → List Char → List Char
  | [], rest => ']' :: rest
  | x :: xs, rest => ',' :: compactOnto x (compactItems xs rest)

def compactMembers : List (String × Json) → List Char → List Char
  | [], rest => '}' :: rest
  | (k, v) :: ms, rest => ',' :: quoted k (':' :: compactOnto v (compactMembers ms rest))

end

def compactChars (v : Json) : List Char :=
  compactOnto v []

def compact (v : Json) : String :=
  String.ofList (compactChars v)

end ModelSchema.Json
