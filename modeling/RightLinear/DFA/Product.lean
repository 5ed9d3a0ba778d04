import RightLinear.DFA.Complete

namespace RightLinear

inductive Operation
  | complement
  | union
  | intersection
deriving DecidableEq, Repr

namespace Operation

def title : Operation → String
  | complement => "complement"
  | union => "union"
  | intersection => "intersection"

-- Whether a pair accepts, by what its two states do.
def accepts : Operation → Bool → Bool → Bool
  | union, a, b => a || b
  | _, a, b => a && b

end Operation

namespace DFA

-- The product of two complete DFAs, whatever their start states.
def pairs (op : Operation) (d₁ d₂ : DFA String) : DFA String :=
  let separator := pairSeparator d₁.states.toList d₂.states.toList
  let pair (q₁ q₂ : String) : String := q₁ ++ separator ++ q₂
  let product := d₁.states.toList.flatMap fun q₁ => d₂.states.toList.map fun q₂ => (q₁, q₂)
  let final := product.filter fun (q₁, q₂) => op.accepts (q₁ ∈ d₁.accepting) (q₂ ∈ d₂.accepting)
  { states := .ofList (product.map fun (q₁, q₂) => pair q₁ q₂)
    alphabet := d₁.alphabet
    start := some (pair (shown d₁.start) (shown d₂.start))
    accepting := .ofList (final.map fun (q₁, q₂) => pair q₁ q₂)
    transitions := .ofList <| product.map fun (q₁, q₂) =>
      (pair q₁ q₂, d₁.totalRow fun a => pair ((d₁.next q₁ a).getD "") ((d₂.next q₂ a).getD "")) }

def sameSymbols (d₁ d₂ : DFA String) : Bool :=
  d₁.alphabet.all (· ∈ d₂.alphabet) && d₂.alphabet.all (· ∈ d₁.alphabet)

-- A state is a pair of states, called by their labels with a separator between them; an absent
-- start state is written in a pair as it is shown elsewhere.
def product (op : Operation) (d₁ d₂ : DFA String) : Except Error (DFA String) :=
  if d₁.sameSymbols d₂ then
    match d₁.missing ++ d₂.missing with
    | (s, a) :: _ => .error (.notComplete s a op.title)
    | [] => make (pairs op d₁ d₂)
  else
    .error (.alphabetMismatch d₁.alphabet d₂.alphabet op.title)

def union (d₁ d₂ : DFA String) : Except Error (DFA String) :=
  product .union d₁ d₂

def intersection (d₁ d₂ : DFA String) : Except Error (DFA String) :=
  product .intersection d₁ d₂

end DFA
end RightLinear
