import LabelFilter.Binary64

/-!
# The shortest decimal of a binary64 number

Among the decimals that round to a number, the shortest one stands for it, and of two that are equally short the
nearer one. `shortest` tries one digit, two digits and so on: on the grid of decimals with that many digits only
the two neighbours of the number can be among them.
-/

namespace LabelFilter.Binary64

/-- The decimal `digits · 10 ^ exponent`. -/
structure Decimal where
  digits : Nat
  exponent : Int
  deriving DecidableEq, Repr

/-- The exponent of the leading decimal digit of a positive ratio. -/
def leadingDigit (num den : Nat) : Int :=
  if den ≤ num then (Nat.toDigits 10 (num / den)).length - 1
  else -(Nat.toDigits 10 ((den - 1) / num)).length

/-- Four times the significand and the two ends of the interval that rounds to the number, in quarters of the last
place. The gap below a power of two is half as wide. -/
def roundingInterval (x : Binary64) : Nat × Nat × Nat :=
  let m := 4 * x.significand
  (m, if x.significand = pow2 52 ∧ minExponent < x.exponent then m - 1 else m - 2, m + 2)

/-- The decimal with `count` digits that rounds to the number and is nearest to it. -/
def nearestWith? (x : Binary64) (count : Nat) : Option Decimal :=
  let (m, low, high) := x.roundingInterval
  let num := pow2 x.exponent.toNat
  let den := 4 * pow2 (-x.exponent).toNat
  let e := leadingDigit (m * num) den - (count - 1 : Nat)
  -- in units of the last decimal digit, all numbers are quarters times `up / down`
  let up := num * pow10 (-e).toNat
  let down := den * pow10 e.toNat
  let isEven := x.significand % 2 == 0
  let rounds (d : Nat) :=
    if isEven then low * up ≤ d * down && d * down ≤ high * up
    else low * up < d * down && d * down < high * up
  let below := m * up / down
  let remainder := m * up % down
  let above := below + 1
  let belowIsNearer := 2 * remainder < down || (2 * remainder == down && below % 2 == 0)
  if rounds below && (belowIsNearer || !rounds above) then some ⟨below, e⟩
  else if rounds above then some ⟨above, e⟩
  else none

/-- Drops the zeros at the end of the digits. -/
def Decimal.trim (d : Decimal) : Decimal :=
  if h : d.digits ≠ 0 ∧ d.digits % 10 = 0 then Decimal.trim ⟨d.digits / 10, d.exponent + 1⟩ else d
termination_by d.digits
decreasing_by omega

/-- The shortest decimal that rounds to a number. Seventeen digits are always enough. -/
def shortest (x : Binary64) : Decimal :=
  if x.isZero then ⟨0, 0⟩
  else (((List.range 17).findSome? fun n => x.nearestWith? (n + 1)).getD ⟨0, 0⟩).trim

end LabelFilter.Binary64
