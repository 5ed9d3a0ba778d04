import RightLinear.Key

namespace RightLinear.Text

-- The characters, and the surrogate codes, which are no characters. A text that is written by codes
-- may hold surrogates on their own.
inductive CodePoint
  | char (c : Char)
  | surrogate (n : Fin 0x800)
deriving DecidableEq, Repr

namespace CodePoint

def code : CodePoint → Nat
  | char c => c.toNat
  | surrogate n => 0xd800 + n

def ofCode (n : Nat) : CodePoint :=
  if h : 0xd800 ≤ n ∧ n ≤ 0xdfff then surrogate ⟨n - 0xd800, by omega⟩ else char (Char.ofNat n)

def char? : CodePoint → Option Char
  | char c => some c
  | surrogate _ => none

-- A surrogate is replaced where only characters can stand.
def toChar (p : CodePoint) : Char :=
  p.char?.getD '\ufffd'

theorem code_injective {p q : CodePoint} (h : p.code = q.code) : p = q := by
  have hs (c : Char) (n : Fin 0x800) : (char c).code ≠ (surrogate n).code := by
    have hc : c.toNat.isValidChar := c.valid
    simp only [Nat.isValidChar] at hc
    simp only [code]
    omega
  cases p
  case char c      =>
    cases q
    case char d      => exact congrArg char (Char.toNat_inj.mp h)
    case surrogate n => exact absurd h (hs c n)
  case surrogate m =>
    cases q
    case char d      => exact absurd h.symm (hs d m)
    case surrogate n =>
      simp only [code] at h
      exact congrArg surrogate (Fin.ext (by omega))

instance : LT CodePoint := ⟨fun p q => p.code < q.code⟩

instance : DecidableLT CodePoint := fun p q =>
  inferInstanceAs (Decidable (p.code < q.code))

instance : Key CodePoint where
  irrefl p := Nat.lt_irrefl p.code
  trans _ _ _ := Nat.lt_trans
  total p q := (Nat.lt_trichotomy p.code q.code).imp_right (·.imp_left code_injective)

end CodePoint

-- A text that may hold surrogates.
abbrev Points := List CodePoint

def points (s : String) : Points :=
  s.toList.map .char

-- A text with a sign in place of each surrogate.
def ofPoints (ps : Points) : String :=
  .ofList (ps.map (·.toChar))

end RightLinear.Text
