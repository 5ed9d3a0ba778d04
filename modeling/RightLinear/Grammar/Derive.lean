import RightLinear.Grammar.Basic
import RightLinear.SortedSet

namespace RightLinear.Grammar

variable (rules : List (String × Shape))

-- Whether one of the non-terminals may vanish.
def vanishes (heads : Labels) : Bool :=
  rules.any fun (left, shape) => left ∈ heads && shape = .empty

-- Whether one of the non-terminals may become the terminal and nothing else.
def ends (heads : Labels) (a : String) : Bool :=
  rules.any fun (left, shape) => left ∈ heads && shape = .terminal a

-- The non-terminals that may be left after the terminal.
def follow (heads : Labels) (a : String) : Labels :=
  .ofList <| rules.filterMap fun (left, shape) =>
    match shape with
    | .step b next => if left ∈ heads && a = b then some next else none
    | _ => none

-- The terminals that the rules use.
def letters : Labels :=
  .ofList <| rules.filterMap fun (_, shape) =>
    match shape with
    | .empty => none
    | .terminal a | .step a _ => some a

-- The words of at most the given length that the non-terminals derive, with the empty word if
-- `done`, in increasing order.
def wordsFrom : Nat → (done : Bool) → Labels → List String
  | n, done, heads =>
    let here := if done || vanishes rules heads then [""] else []
    if heads.isEmpty then here
    else match n with
      | 0 => here
      | n + 1 => here ++ (letters rules).toList.flatMap fun a =>
          (wordsFrom n (ends rules heads a) (follow rules heads a)).map (a ++ ·)

-- The words of at most the given length. Without a start symbol there are none.
def derive (g : Grammar) (bound : Int) : Except Error Labels :=
  match g.start with
  | none => .ok ∅
  | some s => do return .ofList (wordsFrom (← g.shapes) bound.toNat false (.singleton s))

-- A non-terminal derives a word of terminals. Terminals and non-terminals in a production are single
-- characters.
inductive Derives (g : Grammar) : String → List String → Prop
  | empty {left : String} (h : ⟨left, epsilon⟩ ∈ g.productions) : Derives g left []
  | terminal {left : String} {a : Char} (h : ⟨left, .singleton a⟩ ∈ g.productions)
    (ha : .singleton a ∈ g.terminals) : Derives g left [.singleton a]
  | step {left : String} {a b : Char} {word : List String}
    (h : ⟨left, .ofList [a, b]⟩ ∈ g.productions) (ha : .singleton a ∈ g.terminals)
    (hd : Derives g (.singleton b) word) : Derives g left (.singleton a :: word)

end RightLinear.Grammar
