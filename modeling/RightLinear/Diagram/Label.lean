namespace RightLinear.Diagram

-- A match may end before one last line feed.
def atEnd (rest : List Char) : Bool :=
  rest = [] || rest = ['\n']

def isLetter (c : Char) : Bool :=
  c.isAlpha || c = '_'

def isName (cs : List Char) : Bool :=
  match cs with
  | [] => false
  | c :: cs => isLetter c && atEnd (cs.dropWhile fun c => isLetter c || c.isDigit)

def isUnsigned (cs : List Char) : Bool :=
  match cs.dropWhile Char.isDigit with
  | '.' :: ds =>
    let wholePart := cs.head? ≠ some '.'
    (wholePart || (ds.head?.map Char.isDigit).getD false) && atEnd (ds.dropWhile Char.isDigit)
  | rest => (cs.head?.map Char.isDigit).getD false && atEnd rest

def isNumber : List Char → Bool
  | '-' :: cs => isUnsigned cs
  | cs => isUnsigned cs

def isBracketed (cs : List Char) : Bool :=
  let inner := cs.drop 1
  cs.head? = some '<' &&
    (inner.getLast? = some '>' ||
      (inner.getLast? = some '\n' && inner.dropLast.getLast? = some '>'))

def isReserved (cs : List Char) : Bool :=
  String.ofList (cs.map Char.toLower) ∈
    ["node", "edge", "graph", "digraph", "subgraph", "strict"]

-- Puts a backslash before each double quote; of the backslashes already there an even number stays.
-- `run` counts those just before.
def escapeQuotes (run : Nat) : List Char → List Char
  | [] => List.replicate run '\\'
  | c :: cs =>
    if c = '\\' then escapeQuotes (run + 1) cs
    else if c = '"' then
      List.replicate (run - run % 2) '\\' ++ '\\' :: '"' :: escapeQuotes 0 cs
    else List.replicate run '\\' ++ c :: escapeQuotes 0 cs

-- As it is if it is a name, a number or a text in angle brackets, between double quotes otherwise.
-- The words of the language itself are quoted.
def labelText (label : String) : String :=
  let cs := label.toList
  if isBracketed cs || ((isName cs || isNumber cs) && !isReserved cs) then label
  else .ofList ('"' :: (escapeQuotes 0 cs ++ ['"']))

end RightLinear.Diagram
