namespace RightLinear.Log

structure Time where
  year : Nat
  month : Nat
  day : Nat
  hour : Nat
  minute : Nat
  second : Nat
deriving DecidableEq, Repr

namespace Time

-- A number with zeros before it up to a width.
def padded (width n : Nat) : String :=
  .ofList ((Nat.toDigits 10 n).leftpad width '0')

-- Years have four digits and all else has two, so that texts stand in the order of their times.
def text (t : Time) : String :=
  let date := [padded 4 t.year, padded 2 t.month, padded 2 t.day]
  let clock := [padded 2 t.hour, padded 2 t.minute, padded 2 t.second]
  "-".intercalate date ++ " " ++ ":".intercalate clock

end Time
end RightLinear.Log
