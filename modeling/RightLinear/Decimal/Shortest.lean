import RightLinear.Decimal.Binary64

namespace RightLinear

namespace Decimal

-- A quotient of natural numbers.
structure Quotient where
  num : Nat
  den : Nat

namespace Quotient

def le (a b : Quotient) : Bool :=
  a.num * b.den ≤ b.num * a.den

def lt (a b : Quotient) : Bool :=
  a.num * b.den < b.num * a.den

def sub (a b : Quotient) : Quotient :=
  ⟨a.num * b.den - b.num * a.den, a.den * b.den⟩

-- The exponent of ten of the first digit.
def magnitude (a : Quotient) : Int :=
  if a.den ≤ a.num then (digitCount (a.num / a.den) : Int) - 1
  else -(digitCount ((a.den + a.num - 1) / a.num - 1) : Int)

end Quotient

def ofScaled (base n : Nat) (e : Int) : Quotient :=
  let (num, den) := scaled base n e
  ⟨num, den⟩

-- The numbers that round to the number with significand `m` and exponent `q`: from the middle
-- between it and its lower neighbour to the middle between it and its upper one. The ends belong to
-- it if its significand is even.
def roundsTo (m : Nat) (q : Int) (x : Quotient) : Bool :=
  let lower :=
    if m = Nat.pow 2 52 && Binary64.leastExponent < q then ofScaled 2 (4 * m - 1) (q - 2)
    else ofScaled 2 (2 * m - 1) (q - 1)
  let upper := ofScaled 2 (2 * m + 1) (q - 1)
  if m % 2 = 0 then lower.le x && x.le upper else lower.lt x && x.lt upper

-- The nearer of the two neighbours on the grid of ten to the `k`, if one rounds to the number; of
-- two at one distance the even one.
def onGrid (m : Nat) (q k : Int) : Option Nat :=
  let value := ofScaled 2 m q
  let shifted : Quotient :=
    if 0 ≤ k then ⟨value.num, value.den * Nat.pow 10 k.toNat⟩
    else ⟨value.num * Nat.pow 10 (-k).toNat, value.den⟩
  let lo := shifted.num / shifted.den
  let below := roundsTo m q (ofScaled 10 lo k)
  let above := roundsTo m q (ofScaled 10 (lo + 1) k)
  if below && above then some (roundDiv shifted.num shifted.den)
  else if below then some lo
  else if above then some (lo + 1)
  else none

-- Removes zeros from the end of the digits; `fuel` bounds how many.
def dropZeros : (fuel : Nat) → Nat → Int → Nat × Int
  | 0, n, k => (n, k)
  | fuel + 1, n, k => if n % 10 = 0 then dropZeros fuel (n / 10) (k + 1) else (n, k)

-- The digits and the exponent of ten of the shortest number that reads back; seventeen digits
-- always do.
def shortest (m : Nat) (q : Int) : Nat × Int :=
  let e := (ofScaled 2 m q).magnitude
  let grids := (List.range 17).map fun (n : Nat) => e - (n : Int)
  match grids.findSome? fun k => (onGrid m q k).map (·, k) with
  | some (n, k) => dropZeros 17 n k
  | none => (m, 0)

end Decimal

namespace Binary64

open Decimal

-- Positional notation serves for first digits from ten to the -4 to ten to the 15.
def isPositional (e : Int) : Bool :=
  -4 ≤ e && e < 16

def positional (digits : List Char) (e : Int) : List Char :=
  if e < 0 then
    '0' :: '.' :: List.replicate (-e - 1).toNat '0' ++ digits
  else
    let whole := e.toNat + 1
    let fraction := digits.drop whole
    digits.take whole ++ List.replicate (whole - digits.length) '0' ++ '.' ::
      if fraction.isEmpty then ['0'] else fraction

-- With an exponent of at least two digits.
def scientific (digits : List Char) (e : Int) : List Char :=
  let exponent := Nat.toDigits 10 e.natAbs
  digits.take 1 ++ (if digits.length = 1 then [] else '.' :: digits.drop 1) ++
    'e' :: (if e < 0 then '-' else '+') ::
    (if exponent.length = 1 then '0' :: exponent else exponent)

def unsignedText (m : Nat) (q : Int) : List Char :=
  if m = 0 then ['0', '.', '0']
  else
    let (n, k) := shortest m q
    let digits := Nat.toDigits 10 n
    let e := (digits.length : Int) - 1 + k
    if isPositional e then positional digits e else scientific digits e

def text : Binary64 → String
  | nan => "nan"
  | infinity negative => if negative then "-inf" else "inf"
  | finite negative m q => .ofList ((if negative then ['-'] else []) ++ unsignedText m q)

end Binary64
end RightLinear
