namespace RightLinear

-- A finite number is the significand times two to the exponent.
inductive Binary64
  | nan
  | infinity (negative : Bool)
  | finite (negative : Bool) (significand : Nat) (exponent : Int)
deriving DecidableEq, Repr

namespace Decimal

-- The number of decimal digits; zero has one.
def digitCount (n : Nat) : Nat :=
  (Nat.toDigits 10 n).length

-- The nearest natural number to a quotient; of two the even one.
def roundDiv (num den : Nat) : Nat :=
  let q := num / den
  let r := num % den
  if 2 * r < den then q
  else if den < 2 * r then q + 1
  else if q % 2 = 0 then q else q + 1

-- The quotient of two numbers times a power of the base.
def scaled (base n : Nat) (e : Int) : Nat × Nat :=
  if 0 ≤ e then (n * base.pow e.toNat, 1) else (n, base.pow (-e).toNat)

end Decimal

namespace Binary64

open Decimal

-- The least exponent, and the exponent from which on a number is too large.
def leastExponent : Int := -1074
def exponentLimit : Int := 972

-- The largest exponent under which a quotient has at most 53 bits before its point.
def exponentFor (num den : Nat) : Int :=
  let guess : Int := (Nat.log2 num : Int) - (Nat.log2 den : Int) - 52
  let fits (q : Int) : Bool :=
    let (n, d) :=
      if 0 ≤ q then (num, den * Nat.pow 2 q.toNat) else (num * Nat.pow 2 (-q).toNat, den)
    n / d < Nat.pow 2 53
  let q := if fits (guess - 1) then guess - 1 else guess
  max q leastExponent

-- The nearest number to a quotient that is not zero.
def ofQuotient (negative : Bool) (num den : Nat) : Binary64 :=
  let q := exponentFor num den
  let m :=
    if 0 ≤ q then roundDiv num (den * Nat.pow 2 q.toNat)
    else roundDiv (num * Nat.pow 2 (-q).toNat) den
  let (m, q) := if m = Nat.pow 2 53 then (Nat.pow 2 52, q + 1) else (m, q)
  if q < exponentLimit then .finite negative m q else .infinity negative

-- The nearest number to `digits` times ten to the exponent. Numbers far outside the range are not
-- computed.
def ofDecimal (negative : Bool) (digits : Nat) (exponent : Int) : Binary64 :=
  let magnitude := (digitCount digits : Int) + exponent
  if digits = 0 || magnitude < -400 then .finite negative 0 leastExponent
  else if 400 < magnitude then .infinity negative
  else
    let (num, den) := scaled 10 digits exponent
    ofQuotient negative num den

end Binary64
end RightLinear
