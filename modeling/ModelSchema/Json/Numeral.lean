import ModelSchema.Json.Binary64

namespace ModelSchema

def natOfDigits (ds : List Char) : Nat :=
  ds.foldl (fun n c => 10 * n + (c.toNat - 48)) 0

structure Exponent where
  negative : Bool
  digits : List Char
  deriving DecidableEq, Repr

def Exponent.value (e : Exponent) : Int :=
  if e.negative then -(natOfDigits e.digits : Int) else natOfDigits e.digits

structure Numeral where
  whole : List Char
  fraction : List Char
  exponent : Option Exponent
  deriving DecidableEq, Repr

namespace Numeral

def text (n : Numeral) : List Char :=
  n.whole ++ (if n.fraction = [] then [] else '.' :: n.fraction) ++
    match n.exponent with
    | none => []
    | some e => 'e' :: ((if e.negative then ['-'] else []) ++ e.digits)

/-- Puts digits behind those of `n` until the next one would take it beyond 64 bits. What is left
of them is given too. -/
def absorb (n : Nat) : List Char → Nat × List Char
  | [] => (n, [])
  | c :: cs =>
    if 10 * n + (c.toNat - 48) < UInt64.size then absorb (10 * n + (c.toNat - 48)) cs
    else (n, c :: cs)

/-- The digits that count as one whole number, and the power of ten that belongs to it. Digits
that are not taken up before the point still count for the power. -/
def parts (n : Numeral) : Nat × Int :=
  let (significand, dropped) := absorb 0 n.whole
  let (significand, ignored) := absorb significand n.fraction
  let places : Int := n.fraction.length - ignored.length
  (significand, dropped.length - places + (n.exponent.map Exponent.value).getD 0)

def lowered (last : Nat) : Nat → Nat → Nat
  | 0, n => Binary64.dividedBy n (Binary64.power last)
  | blocks + 1, n =>
    if n = 0 then 0
    else lowered last blocks (Binary64.dividedBy n (Binary64.power Binary64.maxPower))

/-- The significand is rounded, and so is what a power of ten makes of it: not always to the
number nearest to the text. -/
def scaled (significand : Nat) : Int → Nat
  | .ofNat e =>
    if e ≤ Binary64.maxPower then Binary64.times (Binary64.ofNat significand) (Binary64.power e)
    else if significand = 0 then 0
    else Binary64.limit
  | .negSucc e =>
    lowered (e % Binary64.maxPower + 1) (e / Binary64.maxPower) (Binary64.ofNat significand)

def units (n : Numeral) : Nat :=
  scaled n.parts.1 n.parts.2

def nat? (n : Numeral) : Option Nat :=
  if n.fraction = [] ∧ n.exponent = none ∧ natOfDigits n.whole < UInt64.size then
    some (natOfDigits n.whole)
  else none

end Numeral

end ModelSchema
