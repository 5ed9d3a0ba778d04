import RightLinear.Decimal.Shortest
import RightLinear.Text.Quoted

namespace RightLinear

-- The fields of an object stand where their names first occur.
inductive Json
  | null
  | bool (b : Bool)
  | integer (i : Int)
  | float (x : Binary64)
  | string (text : Text.Points)
  | array (elements : List Json)
  | object (fields : List (Text.Points × Json))
deriving Inhabited

namespace Json

-- A field takes the value of an earlier one with its name.
def setField (name : Text.Points) (v : Json) :
    List (Text.Points × Json) → List (Text.Points × Json)
  | [] => [(name, v)]
  | (n, u) :: fs => if n = name then (n, v) :: fs else (n, u) :: setField name v fs

mutual
-- A value as it is displayed inside another one.
def inner : Json → String
  | null => "None"
  | bool b => if b then "True" else "False"
  | integer i => toString i
  | float x => x.text
  | string text => Text.quotedPoints text
  | array es => "[" ++ ", ".intercalate (inners es) ++ "]"
  | object fs => "\x7b" ++ ", ".intercalate (innerFields fs) ++ "\x7d"

def inners : List Json → List String
  | [] => []
  | e :: es => inner e :: inners es

def innerFields : List (Text.Points × Json) → List String
  | [] => []
  | (name, v) :: fs => (Text.quotedPoints name ++ ": " ++ inner v) :: innerFields fs
end

-- A text on its own is displayed as it is; inside an array or an object it is quoted.
def display : Json → Text.Points
  | string text => text
  | v => Text.points (inner v)

end Json
end RightLinear
