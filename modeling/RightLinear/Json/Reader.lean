import RightLinear.Json.Value
import RightLinear.Text.Integer

namespace RightLinear.Json

open Text (CodePoint Points)

inductive Reason
  | value
  | propertyName
  | colon
  | comma
  | extra
  | unterminated
  | escape
  | codeEscape
  | control
  | byteOrderMark
deriving DecidableEq, Repr

-- A text that is no JSON value is refused with the reason and the place, counted in characters from
-- the start.
structure SyntaxError where
  reason : Reason
  offset : Nat
deriving DecidableEq, Repr

namespace SyntaxError

def reasonText : Reason → String
  | .value => "Expecting value"
  | .propertyName => "Expecting property name enclosed in double quotes"
  | .colon => "Expecting ':' delimiter"
  | .comma => "Expecting ',' delimiter"
  | .extra => "Extra data"
  | .unterminated => "Unterminated string starting at"
  | .escape => "Invalid \\escape"
  | .codeEscape => "Invalid \\uXXXX escape"
  | .control => "Invalid control character at"
  | .byteOrderMark => "Unexpected UTF-8 BOM (decode using utf-8-sig)"

-- The reason and the place in a text, by line, by column and by character.
def message (e : SyntaxError) (text : List Char) : String :=
  let before := text.take e.offset
  let line := before.count '\n' + 1
  let column := (before.reverse.takeWhile (· ≠ '\n')).length + 1
  s!"{reasonText e.reason}: line {line} column {column} (char {e.offset})"

end SyntaxError

-- What nests.
inductive Container
  | array
  | object
deriving DecidableEq, Repr

def Container.title : Container → String
  | array => "array"
  | object => "object"

-- Why a text is not read.
inductive Refusal
  | malformed (error : SyntaxError)
  | tooDeep (container : Container)
  | tooLong (error : Text.TooManyDigits)
deriving DecidableEq, Repr

def Refusal.message (text : List Char) : Refusal → String
  | malformed e => e.message text
  | tooDeep k =>
    s!"maximum recursion depth exceeded while decoding a JSON {k.title} from a unicode string"
  | tooLong e => e.message

-- How many arrays and objects may be open at once.
def depthLimit : Nat := 989

-- What is left of a text, and how many characters were read.
structure Cursor where
  offset : Nat
  rest : List Char

abbrev Read (α : Type) := Except Refusal (α × Cursor)

namespace Cursor

def skip (c : Cursor) (n : Nat) : Cursor :=
  ⟨c.offset + n, c.rest.drop n⟩

def fail (c : Cursor) (reason : Reason) : Read α :=
  .error (.malformed ⟨reason, c.offset⟩)

def isSpace (c : Char) : Bool :=
  c = ' ' || c = '\t' || c = '\n' || c = '\r'

def skipSpaces (c : Cursor) : Cursor :=
  c.skip (c.rest.takeWhile isSpace).length

end Cursor

def hexValue? (c : Char) : Option Nat :=
  if '0' ≤ c ∧ c ≤ '9' then some (c.toNat - '0'.toNat)
  else if 'a' ≤ c ∧ c ≤ 'f' then some (c.toNat - 'a'.toNat + 10)
  else if 'A' ≤ c ∧ c ≤ 'F' then some (c.toNat - 'A'.toNat + 10)
  else none

-- The code that four hexadecimal digits at the start of a text give.
def code? (cs : List Char) : Option Nat :=
  if (cs.take 4).length = 4 then
    (cs.take 4).foldl (fun n c => n.bind fun n => (hexValue? c).map (16 * n + ·)) (some 0)
  else
    none

def isHighSurrogate (n : Nat) : Bool :=
  0xd800 ≤ n && n ≤ 0xdbff

def isLowSurrogate (n : Nat) : Bool :=
  0xdc00 ≤ n && n ≤ 0xdfff

def simpleEscape? : Char → Option Char
  | '"' => some '"'
  | '\\' => some '\\'
  | '/' => some '/'
  | 'b' => some '\x08'
  | 'f' => some '\x0c'
  | 'n' => some '\n'
  | 'r' => some '\r'
  | 't' => some '\t'
  | _ => none

-- The code point of an escape by code, and the number of characters from the `u` on that it takes; a
-- high and a low surrogate in two escapes make one character. The text after the four digits must go
-- on. `c` stands at the `u`.
def codeEscape (c : Cursor) : Except Refusal (CodePoint × Nat) :=
  let refuse (offset : Nat) : Except Refusal (CodePoint × Nat) :=
    .error (.malformed ⟨.codeEscape, offset⟩)
  if (c.rest.drop 5).isEmpty then refuse c.offset
  else match code? (c.rest.drop 1) with
    | none => refuse c.offset
    | some n =>
      if isHighSurrogate n && !(c.rest.drop 11).isEmpty && (c.rest.drop 5).take 2 = ['\\', 'u'] then
        match code? (c.rest.drop 7) with
        | none => refuse (c.offset + 6)
        | some n' =>
          if isLowSurrogate n' then
            .ok (.ofCode (0x10000 + (n - 0xd800) * 0x400 + (n' - 0xdc00)), 11)
          else .ok (.ofCode n, 5)
      else .ok (.ofCode n, 5)

-- The rest of a string whose opening quote stands at `start`; `skip` characters are read already.
def stringRest (start skip : Nat) (read : Points) (offset : Nat) :
    List Char → Read (Points)
  | [] => .error (.malformed ⟨.unterminated, start⟩)
  | c :: cs =>
    match skip with
    | k + 1 => stringRest start k read (offset + 1) cs
    | 0 =>
      if c = '"' then .ok (read.reverse, ⟨offset + 1, cs⟩)
      else if c = '\\' then
        match cs with
        | [] => .error (.malformed ⟨.unterminated, start⟩)
        | 'u' :: _ =>
          match codeEscape ⟨offset + 1, cs⟩ with
          | .error e => .error e
          | .ok (p, width) => stringRest start width (p :: read) (offset + 1) cs
        | d :: _ =>
          match simpleEscape? d with
          | none => .error (.malformed ⟨.escape, offset⟩)
          | some d => stringRest start 1 (.char d :: read) (offset + 1) cs
      else if c.toNat ≤ 0x1f then .error (.malformed ⟨.control, offset⟩)
      else stringRest start 0 (.char c :: read) (offset + 1) cs

-- A string whose opening quote is the next character.
def readString (c : Cursor) : Read (Points) :=
  stringRest c.offset 0 [] (c.offset + 1) (c.rest.drop 1)

-- The digits of the whole part: a zero, or digits that do not begin with one.
def wholeDigits (cs : List Char) : List Char :=
  match cs with
  | '0' :: _ => ['0']
  | _ => cs.takeWhile Char.isDigit

-- The digits of a fraction with its point, if at least one digit follows the point.
def fractionDigits : List Char → List Char
  | '.' :: cs => cs.takeWhile Char.isDigit
  | _ => []

-- The sign and the digits of an exponent with its letter, if it has a digit.
def exponentPart : List Char → Option (Bool × List Char × Nat)
  | c :: cs =>
    if c = 'e' ∨ c = 'E' then
      let (negative, signs) := match cs with
        | '-' :: _ => (true, 1)
        | '+' :: _ => (false, 1)
        | _ => (false, 0)
      let digits := (cs.drop signs).takeWhile Char.isDigit
      if digits.isEmpty then none else some (negative, digits, 1 + signs + digits.length)
    else none
  | [] => none

def readNumber (c : Cursor) : Read Json :=
  let negative := c.rest.head? = some '-'
  let signs := if negative then 1 else 0
  let whole := wholeDigits (c.rest.drop signs)
  if whole.isEmpty then c.fail .value
  else
    let sign (n : Nat) : Int := if negative then -(n : Int) else n
    let c₁ := c.skip (signs + whole.length)
    let fraction := fractionDigits c₁.rest
    let c₂ := if fraction.isEmpty then c₁ else c₁.skip (1 + fraction.length)
    let digits := Text.decimalValue (whole ++ fraction)
    let scale : Int := -(fraction.length : Int)
    match exponentPart c₂.rest with
    | some (down, ds, width) =>
      let e : Int := if down then -(Text.decimalValue ds : Int) else Text.decimalValue ds
      .ok (.float (.ofDecimal negative digits (scale + e)), c₂.skip width)
    | none =>
      if fraction.isEmpty then
        match Text.natural whole with
        | .error e => .error (.tooLong e)
        | .ok n => .ok (.integer (sign n), c₂)
      else .ok (.float (.ofDecimal negative digits scale), c₂)

-- The words of the format, with the values they stand for.
def constants : List (String × Json) :=
  [("null", .null), ("true", .bool true), ("false", .bool false), ("NaN", .float .nan),
    ("Infinity", .float (.infinity false)), ("-Infinity", .float (.infinity true))]

def constant? (c : Cursor) : Option (Json × Cursor) :=
  (constants.find? fun (word, _) => word.toList.isPrefixOf c.rest).map fun (word, v) =>
    (v, c.skip word.length)

mutual
-- The value that begins at the cursor, inside `depth` arrays and objects. Each value takes one from
-- `fuel`, and a character from the text, so a text never has more values than characters.
def readValue : (fuel depth : Nat) → Cursor → Read Json
  | 0, _, c => c.fail .value
  | fuel + 1, depth, c =>
    match c.rest with
    | '"' :: _ =>
      match readString c with
      | .error e => .error e
      | .ok (s, c) => .ok (.string s, c)
    | '\x7b' :: _ =>
      let c := (c.skip 1).skipSpaces
      if depth = depthLimit then .error (.tooDeep .object)
      else if c.rest.head? = some '\x7d' then .ok (.object [], c.skip 1)
      else readFields fuel (depth + 1) [] c
    | '[' :: _ =>
      let c := (c.skip 1).skipSpaces
      if depth = depthLimit then .error (.tooDeep .array)
      else if c.rest.head? = some ']' then .ok (.array [], c.skip 1)
      else readElements fuel (depth + 1) [] c
    | _ =>
      match constant? c with
      | some v => .ok v
      | none => readNumber c

-- The elements of an array from the one at the cursor on, after the ones in `read`.
def readElements : (fuel depth : Nat) → (read : List Json) → Cursor → Read Json
  | 0, _, _, c => c.fail .value
  | fuel + 1, depth, read, c =>
    match readValue fuel depth c with
    | .error e => .error e
    | .ok (v, c) =>
      let c := c.skipSpaces
      match c.rest with
      | ']' :: _ => .ok (.array (v :: read).reverse, c.skip 1)
      | ',' :: _ => readElements fuel depth (v :: read) (c.skip 1).skipSpaces
      | _ => c.fail .comma

-- The fields of an object from the one at the cursor on, after the ones in `read`.
def readFields :
    (fuel depth : Nat) → (read : List (Points × Json)) → Cursor → Read Json
  | 0, _, _, c => c.fail .value
  | fuel + 1, depth, read, c =>
    if c.rest.head? = some '"' then
      match readString c with
      | .error e => .error e
      | .ok (name, c) =>
        let c := c.skipSpaces
        if c.rest.head? = some ':' then
          match readValue fuel depth (c.skip 1).skipSpaces with
          | .error e => .error e
          | .ok (v, c) =>
            let c := c.skipSpaces
            match c.rest with
            | '\x7d' :: _ => .ok (.object (setField name v read), c.skip 1)
            | ',' :: _ => readFields fuel depth (setField name v read) (c.skip 1).skipSpaces
            | _ => c.fail .comma
        else c.fail .colon
    else c.fail .propertyName
end

-- The value that a whole text stands for.
def read (text : List Char) : Except Refusal Json :=
  if text.head? = some '\ufeff' then .error (.malformed ⟨.byteOrderMark, 0⟩)
  else
    match readValue (2 * text.length + 2) 0 (Cursor.mk 0 text).skipSpaces with
    | .error e => .error e
    | .ok (v, c) =>
      let c := c.skipSpaces
      if c.rest.isEmpty then .ok v else .error (.malformed ⟨.extra, c.offset⟩)

end RightLinear.Json
