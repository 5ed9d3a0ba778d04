import RightLinear.DFA.Basic
import RightLinear.Label

namespace RightLinear.DFA

-- A state that accepts nothing and is never left, and bears a sink's label.
def isSink (d : DFA String) (s : String) : Bool :=
  s ∉ d.accepting && d.alphabet.all fun a => d.next s a == some s

-- The first of the sink labels that is free or belongs to a sink.
def sink (d : DFA String) : String :=
  let candidates := (List.range (d.states.size + 1)).map sinkLabel
  (candidates.find? fun s => s ∉ d.states || d.isSink s).getD (sinkLabel 0)

-- A row with a target for every symbol of the alphabet.
def totalRow (d : DFA String) (target : String → String) : Table String String :=
  .ofList (d.alphabet.map fun a => (a, target a))

def complete (d : DFA String) : DFA String :=
  let sink := d.sink
  let states := d.states.insert sink
  { d with
    states
    transitions := .ofList <| states.toList.map fun s =>
      (s, d.totalRow fun a => if s = sink then sink else (d.next s a).getD sink) }

def complement (d : DFA String) : DFA String :=
  let c := d.complete
  { c with accepting := c.states \ c.accepting }

end RightLinear.DFA
