import RightLinear.CaseFile.Reader
import RightLinear.FileSystem
import RightLinear.RenameFile

namespace RightLinear

inductive LoadError
  | read (error : ReadError)
  | cases (refusal : CaseFile.Refusal)
  | renames (fault : RenameFile.Fault)

def LoadError.message : LoadError → String
  | read e => e.message
  | cases r => r.message
  | renames f => f.message

-- What was noticed before loading failed.
def LoadError.notices : LoadError → List CaseFile.Notice
  | cases r => r.notices
  | read _ | renames _ => []

namespace FileSystem

def loadCases (fs : FileSystem) (path : String) : Except LoadError CaseFile.Reading :=
  match fs.readText path with
  | .error e => .error (.read e)
  | .ok text => (CaseFile.read text).mapError .cases

def loadRenames (fs : FileSystem) (path : String) : Except LoadError (Table Int RenameMap) :=
  match fs.readText path with
  | .error e => .error (.read e)
  | .ok text =>
    match RenameFile.read path text with
    | .error f => .error (.renames f)
    | .ok maps => .ok maps

end FileSystem
end RightLinear
