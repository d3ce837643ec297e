namespace ModelSchema

/-- The whole number nearest to `n / d`; of two that are as near, the even one. -/
def nearest (n d : Nat) : Nat :=
  if 2 * (n % d) < d ∨ (2 * (n % d) = d ∧ n / d % 2 = 0) then n / d else n / d + 1

namespace Binary64

/-- How far apart numbers of about `n` are: no more than 53 bits are kept. -/
def step (n : Nat) : Nat :=
  Nat.pow 2 (n.log2 - 52)

def round (n d : Nat) : Nat :=
  nearest n (d * step (n / d)) * step (n / d)

@[irreducible] def places : Nat :=
  1074

@[irreducible] def limit : Nat :=
  Nat.pow 2 (1024 + places)

structure Fits (n : Nat) : Prop where
  aligned : step n ∣ n
  small : n < limit

instance (n : Nat) : Decidable (Fits n) :=
  decidable_of_iff (step n ∣ n ∧ n < limit) ⟨fun h => ⟨h.1, h.2⟩, fun h => ⟨h.aligned, h.small⟩⟩

end Binary64

/-- A finite number of the binary64 format, counted in the least positive one, `2 ^ -1074`. Zero
has a sign too. -/
structure Binary64 where
  negative : Bool
  units : Nat
  fits : Binary64.Fits units
  deriving DecidableEq, Repr

namespace Binary64

instance : Inhabited Binary64 :=
  ⟨⟨false, 0, by decide +kernel⟩⟩

def ofUnits? (negative : Bool) (n : Nat) : Option Binary64 :=
  if h : Fits n then some ⟨negative, n, h⟩ else none

def one : Nat :=
  Nat.pow 2 places

def ofNat (n : Nat) : Nat :=
  round (n * one) 1

def times (a b : Nat) : Nat :=
  round (a * b) one

def dividedBy (a b : Nat) : Nat :=
  round (a * one) b

def power (k : Nat) : Nat :=
  ofNat (Nat.pow 10 k)

def maxPower : Nat :=
  308

end Binary64

end ModelSchema
