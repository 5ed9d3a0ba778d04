import RightLinear.DFA.Basic
import RightLinear.Diagram.Label
import RightLinear.NFA.Basic

namespace RightLinear

namespace Diagram

-- There is a node for each state, numbered in order, and one edge for each pair of states with
-- arrows between them. An edge from an invisible node points at the start state.
inductive Statement
  | entry
  | node (id : Nat) (label : String) (accepting : Bool)
  | start (id : Nat)
  | edge (source target : Nat) (label : String)
deriving DecidableEq, Repr

end Diagram

structure Diagram where
  kind : Kind
  statements : List Diagram.Statement
deriving DecidableEq, Repr

namespace Diagram

-- Each pair of states with an arrow, where it first occurs, and the symbols of its arrows.
def bundles (arrows : List (Arrow String)) : List (String × String × List String) :=
  (arrows.map fun r => (r.source, r.target)).eraseDups.map fun (s, t) =>
    (s, t, (arrows.filter fun r => r.source = s ∧ r.target = t).map (·.symbol))

def ofAutomaton (kind : Kind) (m : Automaton String) (arrows : List (Arrow String)) : Diagram :=
  let id (s : String) : Nat := m.states.toList.idxOf s
  { kind
    statements :=
      .entry ::
      m.states.toList.map (fun s => .node (id s) s (s ∈ m.accepting)) ++
      (m.start.map fun s => Statement.start (id s)).toList ++
      (bundles arrows).map fun (s, t, symbols) => .edge (id s) (id t) (", ".intercalate symbols) }

def attributes : List (String × String) → String := fun as =>
  " [" ++ " ".intercalate (as.map fun (name, value) => name ++ "=" ++ value) ++ "]"

-- A statement as text, with labels written by `quote`.
def Statement.render (quote : String → String) : Statement → String
  | entry => "__start__" ++ attributes [("shape", "point"), ("style", "invis"), ("width", "0.01")]
  | node id label accepting =>
    let mark := if accepting then
      [("fillcolor", "lightgreen"), ("peripheries", "2"), ("shape", "doublecircle")] else []
    s!"q{id}" ++ attributes (("label", quote label) :: mark)
  | start id => s!"__start__ -> q{id}" ++ attributes [("penwidth", "2")]
  | edge source target label =>
    let ports := if source = target then [("headport", "n"), ("tailport", "n")] else []
    s!"q{source} -> q{target}" ++ attributes (("label", quote label) :: ports)

def graphAttributes (kind : Kind) : List (String × String) :=
  [("bgcolor", "white"), ("dpi", "300"), ("fontname", "Arial"), ("fontsize", "14"),
    ("label", kind.title), ("labelloc", "t"), ("nodesep", "0.8"), ("pad", "0.5"),
    ("rankdir", "LR"), ("ranksep", "1.2"), ("splines", "true")]

def nodeAttributes : List (String × String) :=
  [("color", "black"), ("fillcolor", "lightblue"), ("fontname", "Arial"), ("fontsize", "14"),
    ("penwidth", "2"), ("shape", "circle"), ("style", "filled")]

def edgeAttributes : List (String × String) :=
  [("arrowsize", "0.8"), ("color", "black"), ("fontname", "Arial"), ("fontsize", "12"),
    ("penwidth", "1.5")]

def render (d : Diagram) : String :=
  let body :=
    ("graph" ++ attributes (graphAttributes d.kind)) ::
    ("node" ++ attributes nodeAttributes) ::
    ("edge" ++ attributes edgeAttributes) ::
    d.statements.map (Statement.render labelText)
  "digraph " ++ d.kind.title ++ " \x7b\n" ++ String.join (body.map fun line => "\t" ++ line ++ "\n") ++
    "\x7d\n"

end Diagram

def NFA.diagram (n : NFA) : Diagram :=
  .ofAutomaton .nfa n.toAutomaton n.arrows

def DFA.diagram (d : DFA String) : Diagram :=
  .ofAutomaton .dfa d.toAutomaton d.arrows

end RightLinear
