import ModelSchema.Text.CaseTable

namespace ModelSchema.Text

def inRange (n first last step : Nat) : Bool :=
  first ≤ n && n ≤ last && (n - first) % step = 0

def inRanges (ranges : List (Nat × Nat × Nat)) (c : Char) : Bool :=
  ranges.any fun (first, last, step) => inRange c.toNat first last step

def isUppercase (c : Char) : Bool :=
  inRanges uppercaseRanges c

def isCased (c : Char) : Bool :=
  inRanges casedRanges c

def isCaseIgnorable (c : Char) : Bool :=
  inRanges caseIgnorableRanges c

def simpleLower (c : Char) : Char :=
  match lowercaseRanges.find? fun (first, last, step, _) => inRange c.toNat first last step with
  | some (_, _, _, distance) => Char.ofNat (c.toNat + distance).toNat
  | none => c

def lowerChar (c : Char) : List Char :=
  if c.toNat < 128 then [c.toLower]
  else if c = 'İ' then ['i', '\u0307']
  else [simpleLower c]

def touchesLetter (cs : List Char) : Bool :=
  ((cs.dropWhile isCaseIgnorable).head?.map isCased).getD false

/-- A sigma ends a word if a letter comes before it and none after it. -/
def lowerSigma (before after : List Char) : Char :=
  if touchesLetter before && !touchesLetter after then 'ς' else 'σ'

/-- Lowers a text that follows `before`, whose last character comes first. -/
def lowerAfter (before : List Char) : List Char → List Char
  | [] => []
  | c :: cs => (if c = 'Σ' then [lowerSigma before cs] else lowerChar c) ++ lowerAfter (c :: before) cs

def lowercase (s : String) : String :=
  String.ofList (lowerAfter [] s.toList)

end ModelSchema.Text
