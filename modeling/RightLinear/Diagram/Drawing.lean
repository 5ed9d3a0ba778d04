import RightLinear.Diagram.Basic

namespace RightLinear

namespace Arrow

def parts (r : Arrow String) : List String :=
  [r.source, r.symbol, r.target]

theorem parts_injective {r r' : Arrow String} (h : r.parts = r'.parts) : r = r' := by
  cases r; cases r'; simp_all [parts]

-- By source, then by symbol, then by target.
instance : Key (Arrow String) where
  lt r r' := r.parts < r'.parts
  decLT r r' := inferInstanceAs (Decidable (r.parts < r'.parts))
  irrefl r := Key.irrefl r.parts
  trans r r' r'' := Key.trans r.parts r'.parts r''.parts
  total r r' := (Key.total r.parts r'.parts).imp_right (·.imp_left parts_injective)

end Arrow

namespace Diagram

-- A call that adds a node or an edge, with the attributes that are its own.
inductive Call
  | node (name : String) (label : Option String) (attributes : Table String String)
  | edge (tail head : String) (label : Option String) (attributes : Table String String)
deriving DecidableEq

namespace Call

-- The label, if there is one, is written by `quote`, and before the other attributes in order.
def text (quote : String → String) : Call → String
  | node name label as => name ++ attributes (labelled label ++ as.entries)
  | edge tail head label as => s!"{tail} -> {head}" ++ attributes (labelled label ++ as.entries)
where
  labelled (label : Option String) : List (String × String) :=
    (label.map fun text => ("label", quote text)).toList

end Call

def entryName : String := "__start__"

def entry : Call :=
  .node entryName none (.ofList [("shape", "point"), ("width", "0.01"), ("style", "invis")])

def doubleCircle : Table String String :=
  .ofList [("shape", "doublecircle"), ("fillcolor", "lightgreen"), ("peripheries", "2")]

def loopPorts : Table String String :=
  .ofList [("headport", "n"), ("tailport", "n")]

def identifier (k : Nat) : String :=
  s!"q{k}"

-- What a drawing in the making remembers: the identifiers that states have got so far.
abbrev Drawing : Type → Type :=
  StateM (Table String String)

namespace Drawing

-- A state without an identifier gets the next one.
def identify (s : String) : Drawing String := do
  let ids ← get
  match ids.find? s with
  | some id => return id
  | none =>
    let id := identifier ids.keys.length
    set (ids.insert s id)
    return id

def node (m : Automaton String) (s : String) : Drawing Call := do
  let id ← identify s
  return .node id (some s) (if s ∈ m.accepting then doubleCircle else ∅)

def start (s : String) : Drawing Call := do
  return .edge entryName (← identify s) none (.ofList [("penwidth", "2")])

def edge (bundle : (String × String) × List String) : Drawing Call := do
  let ((s, t), symbols) := bundle
  let source ← identify s
  let target ← identify t
  return .edge source target (some (", ".intercalate symbols)) (if s = t then loopPorts else ∅)

-- Adds the symbol of an arrow to those that have its ends already.
def gather (bundles : List ((String × String) × List String)) (r : Arrow String) :
    List ((String × String) × List String) :=
  match bundles with
  | [] => [((r.source, r.target), [r.symbol])]
  | (ends, symbols) :: bundles =>
    if ends = (r.source, r.target) then (ends, symbols ++ [r.symbol]) :: bundles
    else (ends, symbols) :: gather bundles r

def calls (m : Automaton String) (relation : SortedSet (Arrow String)) : Drawing (List Call) := do
  let nodes ← m.states.toList.mapM (node m)
  let starts ← m.start.toList.mapM start
  let edges ← (relation.toList.foldl gather []).mapM edge
  return entry :: nodes ++ starts ++ edges

end Drawing

def draw (m : Automaton String) (relation : SortedSet (Arrow String)) : List Call :=
  ((Drawing.calls m relation).run ∅).1

end Diagram

-- The relation is a set, and its arrows are drawn in order.
def NFA.draw (n : NFA) : List Diagram.Call :=
  Diagram.draw n.toAutomaton (.ofList n.arrows)

def DFA.draw (d : DFA String) : List Diagram.Call :=
  Diagram.draw d.toAutomaton (.ofList d.arrows)

end RightLinear
