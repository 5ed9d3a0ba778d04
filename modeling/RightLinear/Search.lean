namespace RightLinear.Search

variable {α : Type} [DecidableEq α]

-- The new nodes of a list, each once, in the order of their first occurrence.
def fresh (found : List α) : List α → List α
  | [] => []
  | a :: as => if a ∈ found then fresh found as else a :: fresh (found ++ [a]) as

theorem mem_fresh {a : α} {found as : List α} : a ∈ fresh found as ↔ a ∈ as ∧ a ∉ found := by
  induction as generalizing found
  case nil          => simp [fresh]
  case cons b bs ih =>
    rw [fresh]
    by_cases h : a = b
    case pos => split <;> simp_all
    case neg => split <;> simp [ih, h]

-- Expands the waiting nodes, at most `fuel` of them; `found` holds all that was discovered.
def expand (next : α → List α) : Nat → List α → List α → List α
  | 0, _, found => found
  | _, [], found => found
  | fuel + 1, a :: waiting, found =>
    let new := fresh found (next a)
    expand next fuel (waiting ++ new) (found ++ new)

-- Lists what is found in the order of discovery: the seeds first, then the successors of the nodes
-- in the order in which those were found. A caller passes as `fuel` the size of a list that holds
-- every node, so that the bound is never what ends a search.
def explore (next : α → List α) (fuel : Nat) (seeds : List α) : List α :=
  expand next fuel (fresh [] seeds) (fresh [] seeds)

-- A search between two expansions: the nodes that wait, and all that were found.
structure Queue (α : Type) where
  waiting : List α
  found : List α

namespace Queue

-- A node that is found for the first time waits to be expanded.
def discover (q : Queue α) (a : α) : Queue α :=
  if a ∈ q.found then q else ⟨q.waiting ++ [a], q.found ++ [a]⟩

def start (seeds : List α) : Queue α :=
  seeds.foldl discover ⟨[], []⟩

-- Expands the node that has waited longest; when no node waits, the search is over.
def step (next : α → List α) (q : Queue α) : Option (Queue α) :=
  match q.waiting with
  | [] => none
  | a :: waiting => some ((next a).foldl discover { q with waiting })

-- Expands any of the nodes that wait, and meets its successors in any order.
inductive Expands (next : α → List α) : Queue α → Queue α → Prop
  | intro {before after found as : List α} {a : α} (h : as.Perm (next a)) :
    Expands next ⟨before ++ a :: after, found⟩ (as.foldl discover ⟨before ++ after, found⟩)

end Queue
end RightLinear.Search
