import RightLinear.Batch
import RightLinear.InPlace

namespace RightLinear

-- What a change makes of an automaton, unless it fails.
def Change.result {α : Type} (c : Change α Unit) (a : α) : Except Error α :=
  match c.run a with
  | .ok _ b => .ok b
  | .error e _ => .error e

namespace Grammar

-- The NFA of a grammar grows in place, symbol by symbol and arrow by arrow.
def addRule (g : Grammar) (p : Production) : Change NFA Unit := do
  let r := arrow g.finalState p.left (← ofExcept (g.classify p))
  NFA.InPlace.addTransition r.source r.symbol r.target

-- Makes an NFA of a grammar, beginning with an empty one.
def assemble (g : Grammar) : Change NFA Unit :=
  match g.start with
  | none => throw (.invalid (.noStartSymbol g.name))
  | some s => do
    g.terminals.forM NFA.InPlace.addSymbol
    NFA.InPlace.setStart s
    NFA.InPlace.addAccepting g.finalState
    g.productions.forM g.addRule

def checkedDFA (g : Grammar) : Except Error (DFA String) := do
  let n ← g.assemble.result NFA.empty
  DFA.make (← n.toDFA)

end Grammar

def checkedCombine (dfas : List (DFA String)) (operation : Option String) :
    Except Error (DFA String) :=
  match Operation.ofName? (operationName operation), dfas with
  | some .complement, d :: _ => do
    let c ← DFA.make d.complete
    DFA.make { c with accepting := c.states \ c.accepting }
  | some op, d₁ :: d₂ :: _ => do
    DFA.product op (← DFA.make d₁.complete) (← DFA.make d₂.complete)
  | _, _ => combine dfas operation

def TestCase.checkedRun (c : TestCase) (names : RenameMap) : Except Error (DFA Text.Points) := do
  let dfas ← c.grammars.mapM Grammar.checkedDFA
  let d ← checkedCombine dfas c.operation
  relabel (← DFA.InPlace.trim.result d) names

end RightLinear
