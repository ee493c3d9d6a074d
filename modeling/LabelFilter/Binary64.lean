/-!
# Binary64 numbers

The finite numbers of the IEEE format with 53 bits of precision, as exact dyadic fractions. `Binary64.round` rounds
a ratio to the nearest of them, a tie to the even significand; products and quotients are exact ratios that are
rounded once.
-/

namespace LabelFilter

/-- The number `± significand · 2 ^ exponent`. The representation is the one with the most digits in the
significand that 53 bits and the least exponent, -1074, allow, so that equal magnitudes are equal fields. -/
structure Binary64 where
  negative : Bool
  significand : Nat
  exponent : Int
  deriving DecidableEq, Repr

namespace Binary64

/-- A power of two. -/
def pow2 (k : Nat) : Nat := Nat.pow 2 k

/-- A power of ten. -/
def pow10 (k : Nat) : Nat := Nat.pow 10 k

def minExponent : Int := -1074

def maxExponent : Int := 971

def isZero (x : Binary64) : Bool := x.significand == 0

/-- Equality as numbers: the two zeros are equal. -/
def sameValue (x y : Binary64) : Bool := x = y || (x.isZero && y.isZero)

/-- A quotient to the nearest whole number, a tie to the even one. -/
def divNearest (num den : Nat) : Nat :=
  let q := num / den
  let r := num % den
  if 2 * r < den then q else if den < 2 * r then q + 1 else q + q % 2

/-- The exponent of the leading bit of a positive ratio. -/
def leadingBit (num den : Nat) : Int :=
  let e := (num.log2 : Int) - den.log2
  if den * pow2 e.toNat ≤ num * pow2 (-e).toNat then e else e - 1

/-- The ratio rounded to 53 bits, or to the least exponent if that is coarser. There is none above the largest
finite number. -/
def round (negative : Bool) (num den : Nat) : Option Binary64 :=
  if num = 0 then some ⟨negative, 0, minExponent⟩
  else
    let e := max (leadingBit num den - 52) minExponent
    let m := divNearest (num * pow2 (-e).toNat) (den * pow2 e.toNat)
    let (m, e) := if m = pow2 53 then (pow2 52, e + 1) else (m, e)
    if maxExponent < e then none else some ⟨negative, m, e⟩

/-- The magnitude as a ratio. -/
def ratio (x : Binary64) : Nat × Nat :=
  (x.significand * pow2 x.exponent.toNat, pow2 (-x.exponent).toNat)

def ofNat (negative : Bool) (n : Nat) : Option Binary64 := round negative n 1

/-- The product of `x` and the number nearest to `10 ^ k`. -/
def mulPow10 (x : Binary64) (k : Nat) : Option Binary64 := do
  let p ← ofNat false (pow10 k)
  round x.negative (x.ratio.1 * p.ratio.1) (x.ratio.2 * p.ratio.2)

/-- The quotient of `x` and the number nearest to `10 ^ k`. -/
def divPow10 (x : Binary64) (k : Nat) : Option Binary64 := do
  let p ← ofNat false (pow10 k)
  round x.negative (x.ratio.1 * p.ratio.2) (x.ratio.2 * p.ratio.1)

/-- Division by a power of ten in steps of at most `10 ^ 308`, the largest power among the finite numbers. Each step
rounds. -/
def scaleDown (x : Binary64) (k : Nat) : Option Binary64 :=
  if _ : k ≤ 308 ∨ x.isZero then x.divPow10 (min k 308)
  else do
    let y ← x.divPow10 308
    scaleDown y (k - 308)
termination_by k
decreasing_by omega

/-- Multiplication by a power of ten, which must not leave the finite numbers. -/
def scaleUp (x : Binary64) (k : Nat) : Option Binary64 :=
  if k ≤ 308 then x.mulPow10 k else if x.isZero then some x else none

/-- The number written as `digits · 10 ^ exponent`: the digits are rounded first, the power of ten rounds again. -/
def ofDecimal (negative : Bool) (digits : Nat) (exponent : Int) : Option Binary64 := do
  let x ← ofNat negative digits
  if 0 ≤ exponent then x.scaleUp exponent.toNat else x.scaleDown (-exponent).toNat

end Binary64

end LabelFilter
