import LabelFilter.Binary64.Shortest

/-!
# Numbers of JSON documents

A number written as digits alone is a whole number while it fits 64 bits; any other number is a binary64 number.
The two kinds are never equal, even where they have the same value.
-/

namespace LabelFilter.Json

inductive Number
  | integer (value : Int)
  | double (value : Binary64)
  deriving DecidableEq, Repr

/-- An exponent with its sign. -/
def exponentText (exponent : Int) : List Char :=
  if exponent < 0 then (toString exponent).toList else '+' :: (toString exponent).toList

/-- Digits with a point after the first `point` of them: plain up to sixteen digits before the point and four
zeros after it, beyond that with one digit before the point and a signed exponent. A whole number ends in `.0`. -/
def pointed (digits : List Char) (point : Int) : List Char :=
  let count : Int := digits.length
  if count ≤ point ∧ point ≤ 16 then digits ++ List.replicate (point - count).toNat '0' ++ ['.', '0']
  else if 0 < point ∧ point ≤ 16 then digits.take point.toNat ++ ['.'] ++ digits.drop point.toNat
  else if -5 < point ∧ point ≤ 0 then ['0', '.'] ++ List.replicate (-point).toNat '0' ++ digits
  else
    match digits with
    | [digit] => digit :: 'e' :: exponentText (point - 1)
    | digits => digits.take 1 ++ ['.'] ++ digits.drop 1 ++ 'e' :: exponentText (point - 1)

/-- The shortest decimal, pointed. -/
def doubleText (x : Binary64) : String :=
  let sign := if x.negative then ['-'] else []
  if x.isZero then String.ofList (sign ++ ['0', '.', '0'])
  else
    let d := x.shortest
    let digits := Nat.toDigits 10 d.digits
    String.ofList (sign ++ pointed digits (digits.length + d.exponent))

namespace Number

def text : Number → String
  | integer n => toString n
  | double x => doubleText x

/-- Equality of numbers: of one kind and of one value. -/
def same : Number → Number → Bool
  | integer m, integer n => m == n
  | double x, double y => x.sameValue y
  | _, _ => false

end Number

end LabelFilter.Json
