namespace RightLinear.Text

-- Classes of characters as increasing lists of closed ranges of codes.
structure Ranges where
  bounds : List (Nat × Nat)

namespace Ranges

def among (n : Nat) : List (Nat × Nat) → Bool
  | [] => false
  | (lo, hi) :: rs => if n < lo then false else n ≤ hi || among n rs

def contains (r : Ranges) (n : Nat) : Bool :=
  among n r.bounds

end Ranges
end RightLinear.Text
