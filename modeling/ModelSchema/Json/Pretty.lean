import ModelSchema.Json.Compact

namespace ModelSchema.Json

def newline (level : Nat) (rest : List Char) : List Char :=
  '\n' :: (List.replicate (2 * level) ' ' ++ rest)

mutual

def prettyOnto : Nat → Json → List Char → List Char
  | _, .null, rest => compactOnto .null rest
  | _, .bool b, rest => compactOnto (.bool b) rest
  | _, .int n, rest => compactOnto (.int n) rest
  | _, .float x, rest => compactOnto (.float x) rest
  | _, .string s, rest => quoted s rest
  | _, .array [], rest => '[' :: ']' :: rest
  | level, .array (x :: xs), rest =>
    '[' :: newline (level + 1) (prettyOnto (level + 1) x (prettyItems level xs rest))
  | _, .object [], rest => '{' :: '}' :: rest
  | level, .object ((k, v) :: ms), rest =>
    '{' :: newline (level + 1)
      (quoted k (':' :: ' ' :: prettyOnto (level + 1) v (prettyMembers level ms rest)))

def prettyItems : Nat → List Json → List Char → List Char
  | level, [], rest => newline level (']' :: rest)
  | level, x :: xs, rest =>
    ',' :: newline (level + 1) (prettyOnto (level + 1) x (prettyItems level xs rest))

def prettyMembers : Nat → List (String × Json) → List Char → List Char
  | level, [], rest => newline level ('}' :: rest)
  | level, (k, v) :: ms, rest =>
    ',' :: newline (level + 1)
      (quoted k (':' :: ' ' :: prettyOnto (level + 1) v (prettyMembers level ms rest)))

end

def pretty (v : Json) : String :=
  String.ofList (prettyOnto 0 v [])

end ModelSchema.Json
