import RightLinear.DFA.Product
import RightLinear.DFA.Relabel
import RightLinear.DFA.Trim
import RightLinear.Grammar.ToNFA
import RightLinear.TestCase
import RightLinear.Text.CodePoint

namespace RightLinear

def Operation.ofName? : String → Option Operation
  | "complement" => some .complement
  | "union" => some .union
  | "intersection" => some .intersection
  | _ => none

-- The DFA of an operation. Complement takes the first DFA, union and intersection the first two,
-- made complete; without an operation the first DFA is taken as it is.
def combine (dfas : List (DFA String)) (operation : Option String) : Except Error (DFA String) :=
  let name := operationName operation
  let tooFew (name : String) (required : Nat) : Except Error (DFA String) :=
    .error (.grammarCount name required dfas.length)
  if name.isEmpty then
    match dfas with
    | d :: _ => .ok d
    | [] => tooFew "pass-through" 1
  else match Operation.ofName? name with
    | none => .error (.unknownOperation (operation.getD ""))
    | some .complement =>
      match dfas with
      | d :: _ => .ok d.complement
      | [] => tooFew name 1
    | some op =>
      match dfas with
      | d₁ :: d₂ :: _ => DFA.product op d₁.complete d₂.complete
      | _ => tooFew name 2

open Text (Points points)

-- New labels for the states of one test case.
abbrev RenameMap := Table Points Points

namespace TestCase

-- Without new labels of its own a test case gets the readable ones.
def relabel (d : DFA String) (names : RenameMap) : Except Error (DFA Points) :=
  if names.isEmpty then
    let labels := d.readableLabels
    d.relabel fun s => points ((labels.find? s).getD s)
  else d.relabel fun s => (names.find? (points s)).getD (points s)

-- What a test case comes to, given the DFAs of its grammars.
def finish (c : TestCase) (dfas : List (DFA String)) (names : RenameMap) :
    Except Error (DFA Points) := do
  relabel (← combine dfas c.operation).trim names

def run (c : TestCase) (names : RenameMap) : Except Error (DFA Points) := do
  c.finish (← c.grammars.mapM Grammar.toDFA) names

end TestCase

-- An error stays in the outcome of its test case.
structure Outcome where
  id : Int
  result : Except Error (DFA Points)

def Outcome.failed (o : Outcome) : Bool :=
  match o.result with
  | .ok _ => false
  | .error _ => true

-- The new labels of a test case, by its number; most have none.
def namesFor (maps : Table Int RenameMap) (c : TestCase) : RenameMap :=
  (maps.find? c.id).getD ∅

def runBatch (cases : List TestCase) (maps : Table Int RenameMap) : List Outcome :=
  cases.map fun c => ⟨c.id, c.run (namesFor maps c)⟩

end RightLinear
