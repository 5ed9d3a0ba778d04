import RightLinear.Text.Blank
import RightLinear.Text.Integer
import RightLinear.Text.LowerCase

namespace RightLinear.CaseFile

-- The parts of a grammar, and the operation.
inductive Section
  | alphabet
  | nonTerminals
  | start
  | rules
  | operation
deriving DecidableEq, Repr

namespace Section

-- How a line that opens the section begins, in lower case.
def marker : Section → String
  | alphabet => "# alphabet"
  | nonTerminals => "# variables"
  | start => "# start"
  | rules => "# rules"
  | operation => "# operation"

def all : List Section :=
  [alphabet, nonTerminals, start, rules, operation]

def ofLine? (line : List Char) : Option Section :=
  let lowered := Text.lower line
  all.find? (·.marker.toList.isPrefixOf lowered)

end Section

-- What a line says on its own, before it is known where it stands.
inductive Item
  | blank
  | caseHeader (id : Nat)
  | grammarHeader (name : String)
  | grammarEnd
  -- a line with a hash that opens no section closes the open one
  | sectionHeader (opened : Option Section)
  | payload (text : List Char)
deriving DecidableEq, Repr

-- A line that ends with a colon, without it.
def beforeColon? (line : List Char) : Option (List Char) :=
  if line.getLast? = some ':' then some line.dropLast else none

-- The digits of the number in a case header.
def caseDigits? (line : List Char) : Option (List Char) :=
  (beforeColon? line).filter fun ds => !ds.isEmpty && ds.all Text.isDecimal

def grammarName? (line : List Char) : Option String :=
  (beforeColon? line).bind fun cs =>
    if cs.head? = some 'G' && cs.all (!Text.isBlank ·) then some (.ofList cs) else none

def grammarEndMark : List Char :=
  List.replicate 8 '='

-- Only a case header whose number has too many digits says nothing.
def Item.ofLine (raw : List Char) : Except Text.TooManyDigits Item :=
  let line := Text.trim raw
  if line.isEmpty then .ok .blank
  else match caseDigits? line with
    | some digits => (Text.natural digits).map .caseHeader
    | none =>
      match grammarName? line with
      | some name => .ok (.grammarHeader name)
      | none =>
        if line = grammarEndMark then .ok .grammarEnd
        else if line.head? = some '#' then .ok (.sectionHeader (Section.ofLine? line))
        else .ok (.payload line)

end RightLinear.CaseFile
