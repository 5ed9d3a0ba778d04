namespace RightLinear.Text

-- A line ends at a line feed, a carriage return, the two together, a vertical tab, a form feed, an
-- information separator, a next-line character, or a line or paragraph separator.
def isBreak (c : Char) : Bool :=
  let n := c.toNat
  (0x0a ≤ n && n ≤ 0x0d) || (0x1c ≤ n && n ≤ 0x1e) || n == 0x85 || n == 0x2028 || n == 0x2029

-- The lines of a text without their ends; the last line needs no end.
def lines : List Char → List (List Char)
  | [] => []
  | '\r' :: '\n' :: cs => [] :: lines cs
  | c :: cs =>
    if isBreak c then [] :: lines cs
    else match lines cs with
      | [] => [[c]]
      | l :: ls => (c :: l) :: ls

-- What reading a file does before: it knows line feeds and carriage returns only, and leaves line
-- feeds.
def normalize : List Char → List Char
  | [] => []
  | '\r' :: '\n' :: cs => '\n' :: normalize cs
  | c :: cs => (if c = '\r' then '\n' else c) :: normalize cs

end RightLinear.Text
