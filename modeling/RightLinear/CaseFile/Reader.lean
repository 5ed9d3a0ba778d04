import RightLinear.CaseFile.Item
import RightLinear.Log.Record
import RightLinear.TestCase
import RightLinear.Text.Lines

namespace RightLinear.CaseFile

-- A line that was skipped, by its number, counted from one.
inductive Notice
  | grammarOutside (line : Nat) (name : String)
  | operationOutside (line : Nat)
  | unexpected (line : Nat) (text : String)
  | invalidRule (line : Nat) (text : String)
deriving DecidableEq, Repr

namespace Notice

def line : Notice → Nat
  | grammarOutside n _ | operationOutside n | unexpected n _ | invalidRule n _ => n

def message : Notice → String
  | grammarOutside n name => s!"Line {n}: grammar {name} outside a test case, skipped"
  | operationOutside n => s!"Line {n}: operation outside a test case, skipped"
  | unexpected n text => s!"Line {n}: unexpected line '{text}', skipped"
  | invalidRule n text => s!"Line {n}: invalid rule '{text}', skipped"

-- Where the reader gives a notice.
def place : Notice → Nat
  | grammarOutside .. => 75
  | operationOutside _ => 90
  | unexpected .. => 101
  | invalidRule .. => 115

def record (n : Notice) : Log.Record :=
  ⟨.warning, "io_utils", n.place, n.message⟩

end Notice

-- Why a text gives no test cases, and what was noticed before the line that is at fault.
structure Refusal where
  notices : List Notice
  cause : Text.TooManyDigits
deriving DecidableEq, Repr

def Refusal.message (e : Refusal) : String :=
  e.cause.message

-- The pieces between arrows.
def splitArrows : List Char → List (List Char)
  | [] => [[]]
  | '-' :: '>' :: cs => [] :: splitArrows cs
  | c :: cs =>
    if c = '→' then [] :: splitArrows cs
    else match splitArrows cs with
      | [] => [[c]]
      | w :: ws => (c :: w) :: ws

-- The left side and the right sides of a rule, if it has one arrow and a left side.
def rule? (line : List Char) : Option (String × List String) :=
  match (splitArrows line).map Text.trim with
  | [left, rights] =>
    if left.isEmpty then none
    else
      let alternatives := (Text.split (· = '|') rights).map fun cs => String.ofList (Text.trim cs)
      some (.ofList left, alternatives)
  | _ => none

def addRule (g : Grammar) (rule : String × List String) : Grammar :=
  rule.2.foldl (fun g right => g.addProduction rule.1 right) g

-- The finished test cases, the latest first; the open test case with its finished grammars; the
-- open grammar; and the open section.
structure Reader where
  finished : List TestCase := []
  current : Option TestCase := none
  grammar : Option Grammar := none
  opened : Option Section := none

namespace Reader

-- The open grammar becomes part of the open test case, if there is one.
def closeGrammar (r : Reader) : Reader :=
  { r with
    current := r.current.map fun c => { c with grammars := c.grammars ++ r.grammar.toList }
    grammar := none
    opened := none }

-- A grammar outside a test case is read, since its rules may call for notices, and then forgotten.
def closeCase (r : Reader) : Reader :=
  let r := r.closeGrammar
  { r with
    finished := r.current.toList ++ r.finished
    current := none }

def cases (r : Reader) : List TestCase :=
  r.closeCase.finished.reverse

-- The first operation of a test case stays.
def setOperation (c : TestCase) (text : List Char) : TestCase :=
  if c.operation = none then { c with operation := some (.ofList text) } else c

-- A line in a section of a grammar; `none` stands for a rule that is none.
def fill (g : Grammar) (s : Section) (text : List Char) : Option Grammar :=
  match s with
  | .alphabet => some ((Text.words text).foldl (fun g w => g.addTerminal (.ofList w)) g)
  | .nonTerminals => some ((Text.words text).foldl (fun g w => g.addNonTerminal (.ofList w)) g)
  | .start => some (g.setStart (.ofList text))
  | .rules => (rule? text).map (addRule g)
  | .operation => some g

def readPayload (r : Reader) (line : Nat) (text : List Char) : Reader × Option Notice :=
  let unexpected : Notice := .unexpected line (.ofList text)
  match r.opened, r.grammar, r.current with
  | some .operation, _, none => (r, some (.operationOutside line))
  | some .operation, _, some c => ({ r with current := some (setOperation c text) }, none)
  | some s, some g, _ =>
    match fill g s text with
    | some g => ({ r with grammar := some g }, none)
    | none => (r, some (.invalidRule line (.ofList text)))
  | _, none, some c =>
    -- a line of its own between grammars names the operation
    if c.operation = none then ({ r with current := some (setOperation c text) }, none)
    else (r, some unexpected)
  | _, _, _ => (r, some unexpected)

def read (r : Reader) (line : Nat) : Item → Reader × Option Notice
  | .blank => (r, none)
  | .caseHeader id => ({ r.closeCase with current := some { id := id } }, none)
  | .grammarHeader name =>
    let outside := if r.current.isNone then some (Notice.grammarOutside line name) else none
    ({ r.closeGrammar with grammar := some { name := name } }, outside)
  | .grammarEnd => (r.closeGrammar, none)
  | .sectionHeader opened => ({ r with opened }, none)
  | .payload text => r.readPayload line text

-- Reads lines that are numbered from `line` on; the notices come in the order of the lines.
def readLines (r : Reader) (line : Nat) :
    List (List Char) → Except Refusal (Reader × List Notice)
  | [] => .ok (r, [])
  | l :: ls =>
    match Item.ofLine l with
    | .error cause => .error ⟨[], cause⟩
    | .ok item =>
      let (r, notice) := r.read line item
      match r.readLines (line + 1) ls with
      | .error e => .error { e with notices := notice.toList ++ e.notices }
      | .ok (r, notices) => .ok (r, notice.toList ++ notices)

end Reader

structure Reading where
  cases : List TestCase
  notices : List Notice
deriving DecidableEq, Repr

def read (text : List Char) : Except Refusal Reading :=
  match Reader.readLines {} 1 (Text.lines text) with
  | .error e => .error e
  | .ok (r, notices) => .ok ⟨r.cases, notices⟩

end RightLinear.CaseFile
