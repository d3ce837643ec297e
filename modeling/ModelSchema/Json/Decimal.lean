import ModelSchema.Json.Numeral

namespace ModelSchema

structure Decimal where
  digits : Nat
  exponent : Int
  deriving DecidableEq, Repr

namespace Decimal

def strip : Nat → Nat → Int → Nat × Int
  | 0, digits, exponent => (digits, exponent)
  | fuel + 1, digits, exponent =>
    if digits ≠ 0 ∧ digits % 10 = 0 then strip fuel (digits / 10) (exponent + 1)
    else (digits, exponent)

def normal (digits : Nat) (exponent : Int) : Decimal :=
  let (d, e) := strip (Nat.toDigits 10 digits).length digits exponent
  ⟨d, if d = 0 then 0 else e⟩

def maxPoint : Int := 16

def minPoint : Int := -5

/-- Positional while the point lies among or near the digits, with an exponent beyond that. A whole
number keeps one zero behind its point. -/
def numeral (d : Decimal) : Numeral :=
  let ds := Nat.toDigits 10 d.digits
  let point := d.exponent + ds.length
  if 0 ≤ d.exponent ∧ point ≤ maxPoint then
    ⟨ds ++ List.replicate d.exponent.toNat '0', ['0'], none⟩
  else if 0 < point ∧ point ≤ maxPoint then
    ⟨ds.take point.toNat, ds.drop point.toNat, none⟩
  else if minPoint < point ∧ point ≤ 0 then
    ⟨['0'], List.replicate (-point).toNat '0' ++ ds, none⟩
  else
    let exponent := point - 1
    ⟨ds.take 1, ds.drop 1, some ⟨exponent < 0, Nat.toDigits 10 exponent.natAbs⟩⟩

end Decimal

namespace Binary64

def fineness : Nat :=
  Nat.pow 5 places

def ofDecimal (c j : Nat) : Nat :=
  round (c * Nat.pow 10 j) fineness

/-- Neighbours of the number among the multiples of `10 ^ (j - places)`, the nearest one first. -/
def candidates (units j : Nat) : List Nat :=
  let n := units * fineness
  [nearest n (Nat.pow 10 j), n / Nat.pow 10 j, n / Nat.pow 10 j + 1]

def standIn? (units j : Nat) : Option Nat :=
  (candidates units j).find? fun c => ofDecimal c j = units

def moreDigits : Nat :=
  16

def digits (units : Nat) : Nat → Nat → Nat × Nat
  | 0, j => (nearest (units * fineness) (Nat.pow 10 j), j)
  | more + 1, j => ((standIn? units j).map fun c => (c, j)).getD (digits units more (j - 1))

/-- The shortest decimal that is read as the number. -/
def decimal (units : Nat) : Decimal :=
  let found := digits units moreDigits ((Nat.toDigits 10 (units * fineness)).length - 1)
  Decimal.normal found.1 (found.2 - places)

def numeral (x : Binary64) : Numeral :=
  (decimal x.units).numeral

def text (x : Binary64) : List Char :=
  (if x.negative then ['-'] else []) ++ x.numeral.text

end Binary64

end ModelSchema
