import RightLinear.Text.CodePoint
import RightLinear.Text.Printable

namespace RightLinear.Text

def hexDigit (n : Nat) : Char :=
  if n < 10 then Char.ofNat ('0'.toNat + n) else Char.ofNat ('a'.toNat + (n - 10))

-- The lowest `width` hexadecimal digits of a number.
def hex : (width : Nat) → Nat → List Char
  | 0, _ => []
  | w + 1, n => hex w (n / 16) ++ [hexDigit (n % 16)]

def codeEscape (n : Nat) : List Char :=
  if n < 0x100 then '\\' :: 'x' :: hex 2 n
  else if n < 0x10000 then '\\' :: 'u' :: hex 4 n
  else '\\' :: 'U' :: hex 8 n

def escape (quote c : Char) : List Char :=
  if c = quote || c = '\\' then ['\\', c]
  else if c = '\n' then ['\\', 'n']
  else if c = '\r' then ['\\', 'r']
  else if c = '\t' then ['\\', 't']
  else if isPrintable c then [c]
  else codeEscape c.toNat

def escapePoint (quote : Char) : CodePoint → List Char
  | .char c => escape quote c
  | .surrogate n => codeEscape (CodePoint.surrogate n).code

def quoteFor (ps : Points) : Char :=
  if .char '\'' ∈ ps ∧ .char '"' ∉ ps then '"' else '\''

def quotedPoints (ps : Points) : String :=
  let q := quoteFor ps
  String.ofList (q :: (ps.flatMap (escapePoint q) ++ [q]))

-- Between single quotes, or double ones if the text has a single quote and no double one.
def quoted (s : String) : String :=
  quotedPoints (points s)

-- A list of quoted texts in brackets.
def quotedList (ss : List String) : String :=
  "[" ++ ", ".intercalate (ss.map quoted) ++ "]"

end RightLinear.Text
