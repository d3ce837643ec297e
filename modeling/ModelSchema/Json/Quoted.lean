import ModelSchema.Json

namespace ModelSchema.Json

def hexDigit (n : Nat) : Char :=
  if n < 10 then Char.ofNat (48 + n) else Char.ofNat (87 + n)

/-- The five control characters with a letter of their own, and the two characters a string
cannot hold bare. -/
def shortEscape? (c : Char) : Option Char :=
  if c = '\"' then some '\"'
  else if c = '\\' then some '\\'
  else if c = '\x08' then some 'b'
  else if c = '\t' then some 't'
  else if c = '\n' then some 'n'
  else if c = '\x0c' then some 'f'
  else if c = '\r' then some 'r'
  else none

def escape (c : Char) : List Char :=
  match shortEscape? c with
  | some l => ['\\', l]
  | none =>
    if c.toNat < 32 then ['\\', 'u', '0', '0', hexDigit (c.toNat / 16), hexDigit (c.toNat % 16)]
    else [c]

def quoted (s : String) (rest : List Char) : List Char :=
  '\"' :: s.toList.foldr (fun c tail => escape c ++ tail) ('\"' :: rest)

end ModelSchema.Json
