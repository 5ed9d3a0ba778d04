import RightLinear.Text.Quoted

namespace RightLinear

-- The two kinds of automata.
inductive Kind
  | nfa
  | dfa
deriving DecidableEq, Repr

def Kind.title : Kind → String
  | .nfa => "NFA"
  | .dfa => "DFA"

-- How a label that may be absent is shown.
def shown (label : Option String) : String :=
  label.getD "None"

-- What keeps an automaton from being well formed, or a grammar or NFA from becoming one that is.
inductive Fault
  | epsilonInAlphabet
  | startNotState (state : String)
  | acceptingNotStates (states : List String) (kind : Kind)
  | unknownEndpoint (source symbol target : String)
  | foreignSymbol (source symbol target : String)
  | undeclaredSymbol (symbol : String)
  | noStartState
  | noStartSymbol (grammar : String)
deriving DecidableEq, Repr

def Fault.message : Fault → String
  | .epsilonInAlphabet => "'ε' cannot be an alphabet symbol"
  | .startNotState s => s!"Start state {s} is not one of the states"
  | .acceptingNotStates ss k =>
    s!"Accepting states {Text.quotedList ss} are not states of the {k.title}"
  | .unknownEndpoint s a t => s!"Transition {s} -{a}-> {t} references an unknown state"
  | .foreignSymbol s a t => s!"Transition {s} -{a}-> {t} uses a symbol outside the alphabet"
  | .undeclaredSymbol a => s!"Symbol {a} is not in the alphabet"
  | .noStartState => "Cannot determinize an NFA without a start state"
  | .noStartSymbol g => s!"Grammar {g} has no start symbol"

-- What keeps a production from being right-linear; `stated` carries a wording of its own.
inductive Obstacle
  | notTerminal (symbol : String)
  | terminalInPlace (symbol : String)
  | shape
  | stated (text : String)
deriving DecidableEq, Repr

def Obstacle.message : Obstacle → String
  | .notTerminal a => s!"'{a}' is not a terminal"
  | .terminalInPlace b => s!"'{b}' is a terminal, expected a non-terminal"
  | .shape => "expected ε, a terminal, or a terminal followed by a non-terminal"
  | .stated text => text

-- Why an automaton cannot be built, combined or relabelled.
inductive Error
  | invalid (fault : Fault)
  | unsupported (left right : String) (obstacle : Obstacle)
  | alphabetMismatch (left right : List String) (operation : String)
  | notComplete (state : Option String) (symbol operation : String)
  | unknownOperation (operation : String)
  | grammarCount (operation : String) (required given : Int)
  -- a row of transitions whose source is not a state has no new name
  | strayRow (source : String)
deriving DecidableEq, Repr

namespace Error

-- A set of symbols in braces, in the order given.
def braces (symbols : List String) : String :=
  "\x7b" ++ ", ".intercalate symbols ++ "\x7d"

def message : Error → String
  | invalid fault => fault.message
  | unsupported left right obstacle =>
    let reason := obstacle.message
    s!"Unsupported production {left} -> {right}" ++ if reason.isEmpty then "" else s!" ({reason})"
  | alphabetMismatch left right operation =>
    s!"DFAs must have the same alphabet for {operation}: {braces left} != {braces right}"
  | notComplete state symbol operation =>
    s!"{operation} requires complete DFAs: no transition from {shown state} on {symbol}"
  | unknownOperation operation => s!"Unknown operation: {operation}"
  | grammarCount operation required given =>
    s!"{operation} requires at least {required} grammar(s), got {given}"
  | strayRow source => Text.quoted source

-- The name under which a report lists the error.
def title : Error → String
  | invalid _ => "InvalidAutomatonError"
  | unsupported .. => "UnsupportedProductionError"
  | alphabetMismatch .. => "AlphabetMismatchError"
  | notComplete .. => "NotCompleteError"
  | unknownOperation _ => "UnknownOperationError"
  | grammarCount .. => "GrammarCountError"
  | strayRow _ => "StrayRowError"

end Error
end RightLinear
