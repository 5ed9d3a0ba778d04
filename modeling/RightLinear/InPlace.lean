import RightLinear.DFA.Relabel
import RightLinear.DFA.Trim
import RightLinear.NFA.Basic

namespace RightLinear

-- A program that works on an automaton. Its failure does not undo what it has done.
abbrev Change (α : Type) : Type → Type :=
  EStateM Error α

namespace Change

variable {α : Type}

-- What is there after the change, whether it fails or not.
def after (c : Change α Unit) (a : α) : α :=
  match c.run a with
  | .ok _ b => b
  | .error _ b => b

def error? (c : Change α Unit) (a : α) : Option Error :=
  match c.run a with
  | .ok _ _ => none
  | .error e _ => some e

end Change

namespace NFA

namespace InPlace

def addState (s : String) : Change NFA Unit :=
  modify fun n => { n with states := n.states.insert s }

def setStart (s : String) : Change NFA Unit := do
  modify fun n => { n with start := some s }
  addState s

def addAccepting (s : String) : Change NFA Unit := do
  modify fun n => { n with accepting := n.accepting.insert s }
  addState s

def addSymbol (a : String) : Change NFA Unit := do
  let alphabet := ((← get).alphabet ++ [a]).eraseDups
  if epsilon ∈ alphabet then throw (.invalid .epsilonInAlphabet)
  modify fun n => { n with alphabet }

-- Gives a label a row, unless it has one.
def openRow (s : String) : Change NFA Unit :=
  modify fun n =>
    { n with transitions := n.transitions.insert s ((n.transitions.find? s).getD ∅) }

def putTarget (s a t : String) : Change NFA Unit :=
  modify fun n =>
    let row := (n.transitions.find? s).getD ∅
    { n with
      transitions := n.transitions.insert s (row.insert a (((row.find? a).getD ∅).insert t)) }

def addTransition (s a t : String) : Change NFA Unit := do
  if a ≠ epsilon ∧ a ∉ (← get).alphabet then throw (.invalid (.undeclaredSymbol a))
  addState s
  addState t
  openRow s
  putTarget s a t

end InPlace

inductive Edit
  | addState (s : String)
  | setStart (s : String)
  | addAccepting (s : String)
  | addSymbol (a : String)
  | addTransition (s a t : String)

def Edit.change : Edit → Change NFA Unit
  | addState s => InPlace.addState s
  | setStart s => InPlace.setStart s
  | addAccepting s => InPlace.addAccepting s
  | addSymbol a => InPlace.addSymbol a
  | addTransition s a t => InPlace.addTransition s a t

end NFA

namespace DFA

namespace InPlace

-- Everything but the alphabet.
def replaceWith (e : DFA String) : Change (DFA String) Unit := do
  modify fun d => { d with states := e.states }
  modify fun d => { d with start := e.start }
  modify fun d => { d with accepting := e.accepting }
  modify fun d => { d with transitions := e.transitions }

def trim : Change (DFA String) Unit := do
  replaceWith (← ofExcept (make (← get).trim))

def relabelWith (map : Table String String) : Change (DFA String) Unit := do
  let parts ← ofExcept ((← get).relabelWith map)
  replaceWith (← ofExcept (make parts))

def relabelReadable : Change (DFA String) Unit := do
  relabelWith (← get).readableLabels

end InPlace

inductive Edit
  | trim
  | relabelReadable
  | relabelWith (map : Table String String)

def Edit.change : Edit → Change (DFA String) Unit
  | trim => InPlace.trim
  | relabelReadable => InPlace.relabelReadable
  | relabelWith map => InPlace.relabelWith map

end DFA
end RightLinear
