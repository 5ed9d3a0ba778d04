import RightLinear.Batch
import RightLinear.Json.Reader
import RightLinear.Text.Integer

namespace RightLinear.RenameFile

open Text (Points)

inductive Fault
  | json (refusal : Json.Refusal) (text : List Char)
  | shape (file : String)
  | caseId (text : Points) (fault : Text.IntegerFault)

def Fault.message : Fault → String
  | json r text => r.message text
  | shape file => s!"{file}: expected a JSON object of rename maps keyed by test case id"
  | caseId text fault => fault.message text

def fields? : Json → Option (List (Points × Json))
  | .object fs => some fs
  | _ => none

-- The objects that a value holds, if it is an object of objects.
def objects? (v : Json) : Option (List (Points × List (Points × Json))) :=
  (fields? v).bind fun fs => fs.mapM fun (name, v) => (fields? v).map (name, ·)

-- A new label may be any value and is taken as it is displayed.
def renameMap (fields : List (Points × Json)) : RenameMap :=
  .ofList (fields.map fun (old, new) => (old, new.display))

-- Later maps for a number replace earlier ones.
def addMap (maps : Table Int RenameMap) (entry : Points × List (Points × Json)) :
    Except Fault (Table Int RenameMap) :=
  match Text.integer (entry.1.map (·.toChar)) with
  | .error fault => .error (.caseId entry.1 fault)
  | .ok id => .ok (maps.insert id (renameMap entry.2))

def read (file : String) (text : List Char) : Except Fault (Table Int RenameMap) :=
  match Json.read text with
  | .error e => .error (.json e text)
  | .ok v =>
    match objects? v with
    | none => .error (.shape file)
    | some entries => entries.foldlM addMap ∅

end RightLinear.RenameFile
