import RightLinear.DFA.Product
import RightLinear.InPlace
import RightLinear.NFA.Determinize

namespace RightLinear

-- Automata that a caller holds, by their numbers.
structure Pool where
  nfas : List NFA
  dfas : List (DFA String)

-- A call on a number that is not in use does nothing.
inductive Call
  | newNFA (parts : NFA)
  | newDFA (parts : DFA String)
  | editNFA (i : Nat) (edit : NFA.Edit)
  | editDFA (i : Nat) (edit : DFA.Edit)
  | toDFA (i : Nat)
  | complete (i : Nat)
  | complement (i : Nat)
  | union (i j : Nat)
  | intersection (i j : Nat)

namespace Pool

def empty : Pool where
  nfas := []
  dfas := []

def keepNFA (p : Pool) : Except Error NFA → Pool × Option Error
  | .ok n => ({ p with nfas := p.nfas ++ [n] }, none)
  | .error e => (p, some e)

-- Keeps what is made of automata that are there, if they are.
def keepDFA (p : Pool) : Option (Except Error (DFA String)) → Pool × Option Error
  | none => (p, none)
  | some (.ok d) => ({ p with dfas := p.dfas ++ [d] }, none)
  | some (.error e) => (p, some e)

-- The pool after a call, and the error if the call fails. What is made is checked once more as if
-- it were given by its parts.
def step (p : Pool) : Call → Pool × Option Error
  | .newNFA parts => p.keepNFA (NFA.make parts)
  | .newDFA parts => p.keepDFA (some (DFA.make parts))
  | .editNFA i edit =>
    ({ p with nfas := p.nfas.modify i edit.change.after }, p.nfas[i]? >>= edit.change.error?)
  | .editDFA i edit =>
    ({ p with dfas := p.dfas.modify i edit.change.after }, p.dfas[i]? >>= edit.change.error?)
  | .toDFA i => p.keepDFA (p.nfas[i]?.map fun n => n.toDFA >>= DFA.make)
  | .complete i => p.keepDFA (p.dfas[i]?.map fun d => DFA.make d.complete)
  | .complement i => p.keepDFA (p.dfas[i]?.map fun d => DFA.make d.complement)
  | .union i j => p.keepDFA (p.dfas[i]? >>= fun d => p.dfas[j]?.map d.union)
  | .intersection i j => p.keepDFA (p.dfas[i]? >>= fun d => p.dfas[j]?.map d.intersection)

def run (p : Pool) (calls : List Call) : Pool :=
  calls.foldl (fun p c => (p.step c).1) p

end Pool
end RightLinear
