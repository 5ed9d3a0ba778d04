import RightLinear.DFA.Basic
import RightLinear.Label
import RightLinear.NFA.Basic

namespace RightLinear

-- One after another, each arrow takes the place of an earlier one with its source and symbol.
def Table.ofArrows (arrows : List (Arrow String)) : Table String (Table String String) :=
  arrows.foldl (fun t r => t.insert r.source (((t.find? r.source).getD ∅).insert r.symbol r.target))
    ∅

namespace NFA

-- The sets that one symbol leads to from a set, in the alphabet's order.
def successors (n : NFA) (set : Labels) : List Labels :=
  (n.alphabet.map (n.move set)).filter (!·.isEmpty)

-- The sets that the NFA can be in, beginning with a given one.
def subsets (n : NFA) (first : Labels) : List Labels :=
  Search.explore n.successors (Nat.pow 2 n.states.size) [first]

-- Names for sets in order; `taken` holds the names that are in use.
def nameSets (taken : List String) : List Labels → List (Labels × String)
  | [] => []
  | set :: sets =>
    let name := String.join set.toList
    let name := if name ∈ taken then braced set.toList else name
    (set, name) :: nameSets (name :: taken) sets

-- Of two sets whose labels are the same when written together, the second is called by its labels
-- in braces.
def nameOf (named : List (Labels × String)) (set : Labels) : String :=
  ((named.find? (·.1 = set)).map (·.2)).getD ""

def subsetArrows (n : NFA) (named : List (Labels × String)) : List (Arrow String) :=
  named.flatMap fun (set, name) =>
    n.alphabet.filterMap fun a =>
      let target := n.move set a
      if target.isEmpty then none else some ⟨name, a, nameOf named target⟩

def toDFA (n : NFA) : Except Error (DFA String) :=
  match n.start with
  | none => .error (.invalid .noStartState)
  | some s =>
    let first := n.closure (.singleton s)
    let named := nameSets [] (n.subsets first)
    .ok {
      states := .ofList (named.map (·.2))
      alphabet := n.alphabet
      start := some (nameOf named first)
      accepting := .ofList ((named.filter (·.1.meets n.accepting)).map (·.2))
      transitions := .ofArrows (n.subsetArrows named) }

end NFA
end RightLinear
