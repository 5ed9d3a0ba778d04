import RightLinear.Error
import RightLinear.Automaton

namespace RightLinear

-- The spellings of the empty word.
def isEpsilonMark (text : String) : Bool :=
  text ∈ ["ε", "eps", "epsilon", "EPSILON", "λ", ""]

-- Kept as it was written; only when it is used does it count which shape it has.
structure Production where
  left : String
  right : String
deriving DecidableEq, Repr

theorem unmarked_nil : ∀ a ∈ ([] : List String), isEpsilonMark a = false := by
  simp

-- No terminal is declared twice, and none is a spelling of the empty word.
structure Grammar where
  name : String
  nonTerminals : List String := []
  terminals : List String := []
  start : Option String := none
  productions : List Production := []
  terminals_nodup : terminals.Nodup := by first | exact List.nodup_nil | simp
  terminals_unmarked : ∀ a ∈ terminals, isEpsilonMark a = false := by
    first | exact unmarked_nil | simp
deriving DecidableEq, Repr

-- The shapes of a right-linear production: the empty word, a terminal, or a terminal and a
-- non-terminal.
inductive Shape
  | empty
  | terminal (symbol : String)
  | step (symbol next : String)
deriving DecidableEq, Repr

namespace Grammar

def addNonTerminal (g : Grammar) (symbol : String) : Grammar :=
  if symbol ∈ g.nonTerminals then g else { g with nonTerminals := g.nonTerminals ++ [symbol] }

-- A spelling of the empty word is passed over.
def addTerminal (g : Grammar) (symbol : String) : Grammar :=
  if h : isEpsilonMark symbol = true ∨ symbol ∈ g.terminals then g
  else { g with
    terminals := g.terminals ++ [symbol]
    terminals_nodup :=
      List.nodup_append.mpr ⟨g.terminals_nodup, by simp, fun a ha b hb e =>
        h (.inr (List.mem_singleton.mp hb ▸ e ▸ ha))⟩
    terminals_unmarked := fun a ha =>
      (List.mem_append.mp ha).elim (g.terminals_unmarked a) fun ha => by
        simpa [List.mem_singleton.mp ha] using fun he => h (.inl he) }

def setStart (g : Grammar) (symbol : String) : Grammar :=
  { g with start := some symbol }

def addProduction (g : Grammar) (left right : String) : Grammar :=
  let right := if isEpsilonMark right then epsilon else right
  { g with productions := g.productions ++ [⟨left, right⟩] }

def classify (g : Grammar) (p : Production) : Except Error Shape :=
  let refuse (obstacle : Obstacle) : Except Error Shape :=
    .error (.unsupported p.left p.right obstacle)
  if p.right = epsilon then
    .ok .empty
  else match p.right.toList with
    | [a] =>
      if p.right ∈ g.terminals then .ok (.terminal (.singleton a))
      else refuse (.notTerminal p.right)
    | [a, b] =>
      if .singleton a ∉ g.terminals then refuse (.notTerminal (.singleton a))
      else if .singleton b ∈ g.terminals then refuse (.terminalInPlace (.singleton b))
      else .ok (.step (.singleton a) (.singleton b))
    | _ => refuse .shape

-- The productions with their shapes, unless one has none; the first such is the one at fault.
def shapes (g : Grammar) : Except Error (List (String × Shape)) :=
  g.productions.mapM fun p => do return (p.left, ← g.classify p)

-- The accepting state that stands for the end of a derivation.
def finalState (g : Grammar) : String :=
  "F_" ++ g.name

-- The productions by left side, in the order in which the left sides first occur.
def grouped (g : Grammar) : List (String × List String) :=
  (g.productions.map (·.left)).eraseDups.map fun left =>
    (left, (g.productions.filter (·.left = left)).map (·.right))

def display (g : Grammar) : String :=
  let lines := g.grouped.map fun (left, rights) => s!"    {left} -> " ++ " | ".intercalate rights
  String.join <| [
    s!"Grammar {g.name}:",
    "  Non-terminals: " ++ Error.braces g.nonTerminals,
    "  Terminals: " ++ Error.braces g.terminals,
    s!"  Start symbol: {shown g.start}",
    "  Productions:"] ++ lines |>.map (· ++ "\n")

def summary (g : Grammar) : String :=
  let start := (g.start.map Text.quoted).getD (shown none)
  s!"Grammar({Text.quoted g.name}, start={start}, rules={g.productions.length})"

end Grammar
end RightLinear
