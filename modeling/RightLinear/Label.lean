import RightLinear.SortedSet

namespace RightLinear

-- A set as its members in braces; the empty set has a sign of its own.
def braced (labels : List String) : String :=
  if labels.isEmpty then "∅" else "\x7b" ++ ",".intercalate labels ++ "\x7d"

-- A label of a state that is a set of states, sets of sets and so on.
inductive Nested
  | label (text : String)
  | set (members : List Nested)
deriving Inhabited

namespace Nested

-- A text that is the same for two nested labels exactly when they are the same set: a label is
-- written with its length, a set as the increasing texts of its members.
mutual
def code : Nested → String
  | label text => toString text.length ++ ":" ++ text
  | set members => "\x7b" ++ String.join (SortedSet.ofList (codes members)).toList ++ "\x7d"

def codes : List Nested → List String
  | [] => []
  | m :: ms => code m :: codes ms
end

mutual
def display : Nested → String
  | label text => text
  | set members => braced ((displays members).mergeSort (· ≤ ·))

-- The labels of the members, each member once.
def displays : List Nested → List String
  | [] => []
  | m :: ms => if code m ∈ codes ms then displays ms else display m :: displays ms
end

end Nested

-- Whether no two pairs of labels are joined to the same text, going by the number of joined texts.
def joinsApart (left right : List String) (separator : String) : Bool :=
  (SortedSet.ofList (left.flatMap fun a => right.map fun b => a ++ separator ++ b)).size ==
    left.length * right.length

def separators : List Char :=
  ['|', '#', '~', ':', '+', '^']

-- The first code from U+2500 on that is not among the used ones. Codes past U+D7FF are surrogates,
-- which are no characters; if the search gets there, the character of code zero is given instead.
def unusedCode (used : List Char) : Char :=
  let codes := (List.range (used.length + 1)).map fun i => Char.ofNat (0x2500 + i)
  (codes.find? (· ∉ used)).getD '─'

-- Goes on from a code that is used to the next one; nothing bounds how far.
def nextCode (used : List Char) (code : Nat) : Option Nat :=
  if code ∈ used.map Char.toNat then some (code + 1) else none

-- The text between the labels of a pair: an underscore if that tells all pairs apart, else a
-- character that no label has.
def pairSeparator (left right : List String) : String :=
  if joinsApart left right "_" then
    "_"
  else
    let used := ((left ++ right).flatMap (·.toList)).eraseDups
    .singleton ((separators.find? (· ∉ used)).getD (unusedCode used))

-- The labels of absorbing states: DEAD, DEAD1, DEAD2 and so on.
def sinkLabel (k : Nat) : String :=
  if k = 0 then "DEAD" else "DEAD" ++ toString k

-- The capital letters but for one that is reserved.
def letters (reserved : String) : List String :=
  ("ABCDEFGHIJKLMNOPQRSTUVWXYZ".toList.map String.singleton).filter (· ≠ reserved)

-- The letters in order, then the letters with 1, the letters with 2 and so on.
def readable (reserved : String) (k : Nat) : String :=
  let ls := letters reserved
  ls.getD (k % ls.length) "" ++ if k < ls.length then "" else toString (k / ls.length)

-- The readable label of a start state, which no other state gets.
def startLabel : String := "S"

end RightLinear
