import RightLinear.DFA.Basic

namespace RightLinear.DFA

-- The part that the start state reaches.
def trim {σ : Type} [Key σ] (d : DFA σ) : DFA σ :=
  let kept := d.reachable
  { d with
    states := kept
    accepting := d.accepting ∩ kept
    transitions := d.transitions.filter (· ∈ kept) }

end RightLinear.DFA
