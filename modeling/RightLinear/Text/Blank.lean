namespace RightLinear.Text

-- The white space of every script: tabs, line and page breaks, information separators, the space,
-- the no-break space and the spaces of fixed width. The zero-width spaces are none.
def isBlank (c : Char) : Bool :=
  let n := c.toNat
  (0x09 ≤ n && n ≤ 0x0d) || (0x1c ≤ n && n ≤ 0x20) || n == 0x85 || n == 0xa0 || n == 0x1680 ||
    (0x2000 ≤ n && n ≤ 0x200a) || n == 0x2028 || n == 0x2029 || n == 0x202f || n == 0x205f ||
    n == 0x3000

def trimRight (cs : List Char) : List Char :=
  (cs.reverse.dropWhile isBlank).reverse

def trim (cs : List Char) : List Char :=
  trimRight (cs.dropWhile isBlank)

-- The pieces between the characters of a class, empty ones included; there is always one.
def split (p : Char → Bool) : List Char → List (List Char)
  | [] => [[]]
  | c :: cs =>
    if p c then [] :: split p cs
    else match split p cs with
      | [] => [[c]]
      | w :: ws => (c :: w) :: ws

theorem split_ne_nil {p : Char → Bool} {cs : List Char} : split p cs ≠ [] := by
  cases cs
  case nil       => simp [split]
  case cons c cs =>
    rw [split]
    split
    case isTrue  => simp
    case isFalse => split <;> simp

theorem not_of_mem_split {p : Char → Bool} {cs w : List Char} (h : w ∈ split p cs) :
    ∀ c ∈ w, p c = false := by
  induction cs generalizing w
  case nil          => simp_all [split]
  case cons d cs ih =>
    rw [split] at h
    split at h
    case isTrue     =>
      cases h
      case head   => simp
      case tail h => exact ih h
    case isFalse hd =>
      split at h
      case h_1          => simp_all
      case h_2 v ws heq =>
        cases h
        case tail h => exact ih (heq ▸ .tail _ h)
        case head   =>
          refine List.forall_mem_cons.mpr ⟨by simpa using hd, ?_⟩
          exact ih (heq ▸ .head _)

-- The pieces between blanks, without the empty ones.
def words (cs : List Char) : List (List Char) :=
  (split isBlank cs).filter (!·.isEmpty)

end RightLinear.Text
