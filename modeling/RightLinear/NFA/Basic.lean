import RightLinear.Automaton
import RightLinear.Search
import RightLinear.Table

namespace RightLinear

-- With ε-moves. A set of states is followed through a word by taking the targets of a symbol and
-- then every state that is reached from them without reading.
structure NFA extends Automaton String where
  transitions : Table String (Table String Labels)
deriving DecidableEq

namespace NFA

def empty : NFA where
  states := ∅
  alphabet := []
  start := none
  accepting := ∅
  transitions := ∅

instance : Inhabited NFA := ⟨empty⟩

-- The arrows in the order of their sources, then of their symbols, then of their targets.
def arrows (n : NFA) : List (Arrow String) :=
  n.transitions.entries.flatMap fun (s, row) =>
    row.entries.flatMap fun (a, targets) => targets.toList.map (⟨s, a, ·⟩)

def Valid (n : NFA) : Prop :=
  n.toAutomaton.WellFormed .nfa n.arrows

-- An NFA from its parts, unless they do not fit together. A repeated symbol of the alphabet counts
-- where it stands first.
def make (parts : NFA) : Except Error NFA :=
  let n := { parts with alphabet := parts.alphabet.eraseDups }
  match n.toAutomaton.fault? .nfa n.arrows with
  | some fault => .error (.invalid fault)
  | none => .ok n

def addState (n : NFA) (s : String) : NFA :=
  { n with states := n.states.insert s }

def setStart (n : NFA) (s : String) : NFA :=
  { n.addState s with start := some s }

def addAccepting (n : NFA) (s : String) : NFA :=
  { n.addState s with accepting := n.accepting.insert s }

def addSymbol (n : NFA) (a : String) : Except Error NFA :=
  let alphabet := (n.alphabet ++ [a]).eraseDups
  if epsilon ∈ alphabet then .error (.invalid .epsilonInAlphabet)
  else .ok { n with alphabet }

def targets (n : NFA) (s a : String) : Labels :=
  ((n.transitions.find? s).bind (·.find? a)).getD ∅

-- Both ends of a new arrow become states.
def link (n : NFA) (s a t : String) : NFA :=
  let row := (n.transitions.find? s).getD ∅
  let n := (n.addState s).addState t
  { n with
    transitions := n.transitions.insert s (row.insert a (((row.find? a).getD ∅).insert t)) }

def addTransition (n : NFA) (s a t : String) : Except Error NFA :=
  if a ≠ epsilon ∧ a ∉ n.alphabet then .error (.invalid (.undeclaredSymbol a))
  else .ok (n.link s a t)

-- A bound on the number of labels that ε-moves lead to.
def closureBound (n : NFA) : Nat :=
  (n.transitions.values.map fun row => ((row.find? epsilon).getD ∅).size).foldr (· + ·) 0

-- The labels reached from the given ones by ε-moves; a label need not be a state.
def closure (n : NFA) (ls : Labels) : Labels :=
  .ofList <|
    Search.explore (fun s => (n.targets s epsilon).toList) (ls.size + n.closureBound) ls.toList

def move (n : NFA) (ls : Labels) (a : String) : Labels :=
  n.closure (.unionAll (ls.toList.map (n.targets · a)))

def reach (n : NFA) (ls : Labels) (word : List String) : Labels :=
  word.foldl n.move ls

def accepts (n : NFA) (word : List String) : Bool :=
  match n.start with
  | none => false
  | some s => (n.reach (n.closure (.singleton s)) word).meets n.accepting

end NFA
end RightLinear
