import RightLinear.Text.Blank
import RightLinear.Text.Digit
import RightLinear.Text.Quoted

namespace RightLinear.Text

-- How many digits a number may have, leading zeros included.
def digitLimit : Nat := 4300

structure TooManyDigits where
  count : Nat
deriving DecidableEq, Repr

def TooManyDigits.message (e : TooManyDigits) : String :=
  s!"Exceeds the limit ({digitLimit} digits) for integer string conversion: " ++
    s!"value has {e.count} digits; use sys.set_int_max_str_digits() to increase the limit"

-- The value of a run of digits.
def natural (digits : List Char) : Except TooManyDigits Nat :=
  if digits.length ≤ digitLimit then .ok (decimalValue digits) else .error ⟨digits.length⟩

-- Why a text gives no integer.
inductive IntegerFault
  | malformed
  | tooLong (error : TooManyDigits)
deriving DecidableEq, Repr

-- What is said of a text that is no integer; a long quotation is cut.
def IntegerFault.message (text : Points) : IntegerFault → String
  | malformed =>
    "invalid literal for int() with base 10: " ++
      String.ofList ((quotedPoints text).toList.take 200)
  | tooLong e => e.message

-- The blanks that may stand around an integer: all but information separators.
def isPadding (c : Char) : Bool :=
  isBlank c && !(0x1c ≤ c.toNat && c.toNat ≤ 0x1f)

def inNumeral (c : Char) : Bool :=
  isDecimal c || c = '_'

-- The digits of groups with single underscores between them; no group is empty.
def ungrouped? (numeral : List Char) : Option (List Char) :=
  let groups := split (· = '_') numeral
  if groups.any (·.isEmpty) then none else some groups.flatten

-- A numeral and the blanks after it. Its digits are counted before what follows is looked at.
def unsigned (cs : List Char) : Except IntegerFault Nat :=
  match ungrouped? (cs.takeWhile inNumeral) with
  | none => .error .malformed
  | some digits =>
    match natural digits with
    | .error e => .error (.tooLong e)
    | .ok n => if (cs.dropWhile inNumeral).all isPadding then .ok n else .error .malformed

-- A text with blanks around it, a sign, and single underscores between digits.
def integer (cs : List Char) : Except IntegerFault Int :=
  match cs.dropWhile isPadding with
  | '+' :: cs => (unsigned cs).map Int.ofNat
  | '-' :: cs => (unsigned cs).map (-Int.ofNat ·)
  | cs => (unsigned cs).map Int.ofNat

end RightLinear.Text
