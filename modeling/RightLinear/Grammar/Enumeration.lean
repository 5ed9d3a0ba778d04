import RightLinear.Grammar.Basic
import RightLinear.Search
import RightLinear.SortedSet

namespace RightLinear.Grammar

-- What a derivation has read, and the non-terminal that is left of it.
structure Form where
  read : String
  head : String
deriving DecidableEq, Repr

def Form.hasRoom (form : Form) (bound : Int) : Bool :=
  form.read.length + 1 ≤ bound

-- An enumeration between two expansions: the search for forms, and the words so far.
structure Enumeration extends Search.Queue Form where
  words : Labels

-- The shapes of the productions of one non-terminal.
def shapesOf (rules : List (String × Shape)) (head : String) : List Shape :=
  rules.filterMap fun (left, shape) => if left = head then some shape else none

namespace Enumeration

def start (s : String) : Enumeration where
  toQueue := .start [⟨"", s⟩]
  words := ∅

-- A production without a terminal applies to a text of any length.
def apply (bound : Int) (form : Form) (e : Enumeration) : Shape → Enumeration
  | .empty => { e with words := e.words.insert form.read }
  | .terminal a =>
    if form.hasRoom bound then { e with words := e.words.insert (form.read ++ a) } else e
  | .step a next =>
    if form.hasRoom bound then { e with toQueue := e.discover ⟨form.read ++ a, next⟩ } else e

-- Expands the form that has waited longest; when no form waits, the enumeration is over.
def step (rules : List (String × Shape)) (bound : Int) (e : Enumeration) : Option Enumeration :=
  match e.waiting with
  | [] => none
  | form :: waiting => some ((shapesOf rules form.head).foldl (apply bound form) { e with waiting })

end Enumeration
end RightLinear.Grammar
