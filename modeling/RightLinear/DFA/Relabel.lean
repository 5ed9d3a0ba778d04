import RightLinear.DFA.Basic
import RightLinear.Label

namespace RightLinear.DFA

variable {τ : Type} [Key τ]

-- Entries of the second row take the place of entries of the first.
def overlay (row₁ row₂ : Table String τ) : Table String τ :=
  row₂.entries.foldl (fun row e => row.insert e.1 e.2) row₁

-- States that get one label become one state; of two transitions that clash then, the one with the
-- greater old source stays.
def relabelRows (f : String → τ) (rows : Table String (Table String String)) :
    Table τ (Table String τ) :=
  rows.entries.foldl
    (fun t e => t.insert (f e.1) (overlay ((t.find? (f e.1)).getD ∅) (e.2.map fun _ => f))) ∅

-- Every source of a row must be a state, since only states get labels.
def relabel (d : DFA String) (f : String → τ) : Except Error (DFA τ) :=
  match d.transitions.keys.find? (· ∉ d.states) with
  | some s => .error (.strayRow s)
  | none => .ok {
      states := d.states.image f
      alphabet := d.alphabet
      start := d.start.map f
      accepting := d.accepting.image f
      transitions := relabelRows f d.transitions }

-- Labels from a partial map; a state that it leaves out keeps its label.
def relabelWith (d : DFA String) (map : Table String String) : Except Error (DFA String) :=
  d.relabel fun s => (map.find? s).getD s

-- The start state gets its own label, the others the readable ones in order.
def readableEntries (d : DFA String) : List (String × String) :=
  let others := d.states.toList.filter (d.start ≠ some ·)
  d.start.toList.map (·, startLabel) ++ others.zipIdx.map fun (s, k) => (s, readable startLabel k)

def readableLabels (d : DFA String) : Table String String :=
  .ofList d.readableEntries

def relabelReadable (d : DFA String) : Except Error (DFA String) :=
  d.relabelWith d.readableLabels

end RightLinear.DFA
