import RightLinear.Grammar.Basic
import RightLinear.NFA.Determinize

namespace RightLinear.Grammar

-- The arrow that a production becomes, given the accepting state.
def arrow (final left : String) : Shape → Arrow String
  | .empty => ⟨left, epsilon, final⟩
  | .terminal a => ⟨left, a, final⟩
  | .step a next => ⟨left, a, next⟩

-- Non-terminals become states; a production that ends a derivation leads to one more state, which
-- accepts.
def toNFA (g : Grammar) : Except Error NFA :=
  match g.start with
  | none => .error (.invalid (.noStartSymbol g.name))
  | some s => do
    let rules ← g.shapes
    let bare := { NFA.empty with alphabet := g.terminals }
    let frame := (bare.setStart s).addAccepting g.finalState
    return rules.foldl
      (fun n (left, shape) =>
        let r := arrow g.finalState left shape
        n.link r.source r.symbol r.target)
      frame

def toDFA (g : Grammar) : Except Error (DFA String) := do
  (← g.toNFA).toDFA

end RightLinear.Grammar
