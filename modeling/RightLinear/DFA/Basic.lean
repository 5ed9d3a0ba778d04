import RightLinear.Automaton
import RightLinear.Search
import RightLinear.Table

namespace RightLinear

-- Total or partial. A missing transition rejects the word, and a row without entries is kept,
-- whether its source is a state or not.
structure DFA (σ : Type) [Key σ] extends Automaton σ where
  transitions : Table σ (Table String σ)
deriving DecidableEq

namespace DFA

variable {σ : Type} [Key σ]

instance : Inhabited (DFA σ) := ⟨⟨⟨∅, [], none, ∅⟩, ∅⟩⟩

-- The arrows in the order of their sources, then of their symbols.
def arrows (d : DFA σ) : List (Arrow σ) :=
  d.transitions.entries.flatMap fun (s, row) => row.entries.map fun (a, t) => ⟨s, a, t⟩

def Valid (d : DFA σ) : Prop :=
  d.toAutomaton.WellFormed .dfa d.arrows

-- A DFA from its parts, unless they do not fit together. A repeated symbol of the alphabet counts
-- where it stands first.
def make (parts : DFA String) : Except Error (DFA String) :=
  let d := { parts with alphabet := parts.alphabet.eraseDups }
  match d.toAutomaton.fault? .dfa d.arrows with
  | some fault => .error (.invalid fault)
  | none => .ok d

def row (d : DFA σ) (s : σ) : Table String σ :=
  (d.transitions.find? s).getD ∅

def next (d : DFA σ) (s : σ) (a : String) : Option σ :=
  (d.row s).find? a

-- The state after a word, if every transition on the way is there.
def run (d : DFA σ) : Option σ → List String → Option σ
  | s, [] => s
  | none, _ :: _ => none
  | some s, a :: word => d.run (d.next s a) word

def accepts (d : DFA σ) (word : List String) : Bool :=
  match d.run d.start word with
  | none => false
  | some s => s ∈ d.accepting

-- The pairs of a state and a symbol without a transition, by state, then in the alphabet's order.
def missing (d : DFA σ) : List (σ × String) :=
  d.states.toList.flatMap fun s =>
    let row := d.row s
    (d.alphabet.filter fun a => (row.find? a).isNone).map (s, ·)

def isComplete (d : DFA σ) : Bool :=
  d.missing.isEmpty

def reachable (d : DFA σ) : SortedSet σ :=
  match d.start with
  | none => ∅
  | some s => .ofList (Search.explore (fun s => (d.row s).values) d.states.size [s])

-- The start state first, then the others in order.
def orderedStates (d : DFA σ) : List σ :=
  match d.start with
  | none => d.states.toList
  | some s => s :: d.states.toList.filter (· ≠ s)

-- The arrows by ordered state, then in the alphabet's order.
def orderedArrows (d : DFA σ) : List (Arrow σ) :=
  d.orderedStates.flatMap fun s =>
    let row := d.row s
    d.alphabet.filterMap fun a => (row.find? a).map (⟨s, a, ·⟩)

end DFA
end RightLinear
