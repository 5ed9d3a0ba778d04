import RightLinear.Batch
import RightLinear.Log.Record

namespace RightLinear

open Log (Record)

-- What a computation does is defined without the records that it leaves; these functions say what
-- is written about it.
def Grammar.traceNFA (g : Grammar) : List Record :=
  match g.toNFA with
  | .error _ => []
  | .ok n =>
    [⟨.debug, "grammar", 164,
      s!"Grammar {g.name}: {g.productions.length} productions -> NFA with {n.states.size} states"⟩]

def NFA.traceDFA (n : NFA) : List Record :=
  match n.start with
  | none => []
  | some s =>
    let found := (n.subsets (n.closure (.singleton s))).length
    [⟨.debug, "automaton", 341,
      s!"Determinized NFA with {n.states.size} states into DFA with {found} states"⟩]

-- A grammar that has an NFA has a DFA too.
def Grammar.traceDFA (g : Grammar) : List Record :=
  g.traceNFA ++
    match g.toNFA with
    | .error _ => []
    | .ok n => n.traceDFA

def DFA.traceProduct (op : Operation) (d₁ d₂ : DFA String) : List Record :=
  if d₁.sameSymbols d₂ && d₁.isComplete && d₂.isComplete then
    let sizes := s!"{d₁.states.size} x {d₂.states.size} states"
    [⟨.debug, "automaton", 513,
      s!"{op.title} of {sizes} -> {(DFA.pairs op d₁ d₂).states.size} product states"⟩]
  else
    []

def DFA.traceTrim (d : DFA String) : List Record :=
  let dropped := d.states.size - d.reachable.size
  if dropped = 0 then []
  else [⟨.debug, "automaton", 566, s!"Trimmed {dropped} unreachable state(s)"⟩]

def traceCombine (dfas : List (DFA String)) (operation : Option String) : List Record :=
  match Operation.ofName? (operationName operation), dfas with
  | some .union, d₁ :: d₂ :: _ => DFA.traceProduct .union d₁.complete d₂.complete
  | some .intersection, d₁ :: d₂ :: _ => DFA.traceProduct .intersection d₁.complete d₂.complete
  | _, _ => []

namespace TestCase

-- The records of building DFAs, up to the first grammar that has none.
def traceGrammars : List Grammar → List Record
  | [] => []
  | g :: gs =>
    g.traceDFA ++
      match g.toNFA with
      | .error _ => []
      | .ok _ => traceGrammars gs

def traceResult (c : TestCase) : Except Error (DFA Text.Points) → Record
  | .error e => ⟨.warning, "pipeline", 90, s!"Test case {c.id} failed: {e.message}"⟩
  | .ok d =>
    let name := operationName c.operation
    let name := if name.isEmpty then "pass-through" else name
    ⟨.info, "pipeline", 93,
      s!"Test case {c.id}: {name} -> {d.states.size} states, {d.accepting.size} final"⟩

def traceFinish (c : TestCase) (dfas : List (DFA String)) (names : RenameMap) : List Record :=
  let trimmed := match combine dfas c.operation with
    | .error _ => []
    | .ok d => d.traceTrim
  traceCombine dfas c.operation ++ trimmed ++ [c.traceResult (c.finish dfas names)]

def trace (c : TestCase) (names : RenameMap) : List Record :=
  traceGrammars c.grammars ++
    match c.grammars.mapM Grammar.toDFA with
    | .error e => [c.traceResult (.error e)]
    | .ok dfas => c.traceFinish dfas names

end TestCase

def traceBatch (cases : List TestCase) (maps : Table Int RenameMap) : List Record :=
  cases.flatMap fun c => c.trace (namesFor maps c)

end RightLinear
