import RightLinear.Error
import RightLinear.SortedSet

namespace RightLinear

-- The mark of a transition that reads no symbol; never a symbol of an alphabet.
def epsilon : String := "ε"

structure Arrow (σ : Type) where
  source : σ
  symbol : String
  target : σ
deriving DecidableEq, Repr

-- What an NFA and a DFA have in common. The alphabet keeps the order in which its symbols were
-- declared.
structure Automaton (σ : Type) [Key σ] where
  states : SortedSet σ
  alphabet : List String
  start : Option σ
  accepting : SortedSet σ
deriving DecidableEq

namespace Automaton

-- Only the transitions of an NFA may read nothing.
def allows (kind : Kind) (symbol : String) : Bool :=
  kind = .nfa && symbol = epsilon

structure WellFormed {σ : Type} [Key σ] (m : Automaton σ) (kind : Kind)
    (arrows : List (Arrow σ)) : Prop where
  alphabet_nodup : m.alphabet.Nodup
  epsilon_not_mem : epsilon ∉ m.alphabet
  start_mem : ∀ s, m.start = some s → s ∈ m.states
  accepting_mem : ∀ s ∈ m.accepting, s ∈ m.states
  source_mem : ∀ r ∈ arrows, r.source ∈ m.states
  target_mem : ∀ r ∈ arrows, r.target ∈ m.states
  symbol_mem : ∀ r ∈ arrows, r.symbol ∈ m.alphabet ∨ allows kind r.symbol = true

def arrowFault? (m : Automaton String) (kind : Kind) (r : Arrow String) : Option Fault :=
  if r.source ∉ m.states ∨ r.target ∉ m.states then
    some (.unknownEndpoint r.source r.symbol r.target)
  else if r.symbol ∉ m.alphabet ∧ allows kind r.symbol = false then
    some (.foreignSymbol r.source r.symbol r.target)
  else
    none

-- The first fault: of the alphabet, the start, the accepting states, then of the arrows in order.
def fault? (m : Automaton String) (kind : Kind) (arrows : List (Arrow String)) :
    Option Fault :=
  if epsilon ∈ m.alphabet then
    some .epsilonInAlphabet
  else match m.start.filter (· ∉ m.states) with
    | some s => some (.startNotState s)
    | none =>
      let stray := m.accepting \ m.states
      if stray.isEmpty then arrows.findSome? (m.arrowFault? kind)
      else some (.acceptingNotStates stray.toList kind)

end Automaton
end RightLinear
