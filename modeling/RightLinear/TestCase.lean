import RightLinear.Grammar.Basic
import RightLinear.Text.Blank
import RightLinear.Text.LowerCase

namespace RightLinear

-- Numbered grammars and an operation on their languages, as it was written.
structure TestCase where
  id : Int
  grammars : List Grammar := []
  operation : Option String := none
deriving DecidableEq, Repr

-- The name of an operation, whatever its case and the blanks around it; no operation has no name.
def operationName (operation : Option String) : String :=
  .ofList (Text.lower (Text.trim (operation.getD "").toList))

end RightLinear
