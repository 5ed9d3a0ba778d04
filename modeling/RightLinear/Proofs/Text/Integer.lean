import Mathlib.Data.List.Basic
import RightLinear.Proofs.Label
import RightLinear.Proofs.Text.Lines
import RightLinear.Text.Integer

namespace RightLinear.Text

variable {c : Char} {n : Nat}

theorem digitValue?_of_isDigit (h : c.isDigit = true) :
    digitValue? c = some (c.toNat - '0'.toNat) := by
  have hz : (0x30 ≤ c.toNat && c.toNat < 0x30 + 10) = true := by
    simp only [Char.isDigit, Bool.and_eq_true, decide_eq_true_eq] at h ⊢
    exact ⟨h.left, Nat.lt_succ_of_le h.right⟩
  have hf : (zeros.find? fun z => z ≤ c.toNat && c.toNat < z + 10) = some 0x30 :=
    List.find?_cons_of_pos hz
  rw [digitValue?, hf]
  rfl

theorem isDecimal_of_isDigit (h : c.isDigit = true) : isDecimal c = true := by
  rw [isDecimal, digitValue?_of_isDigit h]
  rfl

theorem not_blank_of_isDigit (h : c.isDigit = true) : isBlank c = false := by
  have ⟨hl, hu⟩ : 48 ≤ c.toNat ∧ c.toNat ≤ 57 := by
    simp only [Char.isDigit, Bool.and_eq_true, decide_eq_true_eq] at h
    exact h
  simp [isBlank]
  omega

theorem toList_toString : (toString n).toList = Nat.toDigits 10 n :=
  Nat.toList_repr

theorem isDigit_of_mem_toString (h : c ∈ (toString n).toList) : c.isDigit = true :=
  Nat.isDigit_of_mem_toDigits (by decide) (by decide) (toList_toString ▸ h)

theorem mem_toString_int {i : Int} (h : c ∈ (toString i).toList) : c = '-' ∨ c.isDigit = true := by
  rw [Int.toString_eq_repr, Int.repr_eq_if] at h
  split at h
  case isTrue  => exact .inr (isDigit_of_mem_toString h)
  case isFalse =>
    rw [String.toList_append] at h
    exact (List.mem_append.mp h).imp List.mem_singleton.mp isDigit_of_mem_toString

theorem oneLine_toString {i : Int} : OneLine (toString i) := by
  intro h
  cases mem_toString_int h
  case inl h => exact absurd h (by decide)
  case inr h => exact absurd h (by decide)

theorem toString_int_injective {i j : Int} (h : toString i = toString j) : i = j := by
  have hs {k l : Nat} : toString k ≠ "-" ++ toString l := by
    intro he
    have hm : '-' ∈ (toString k).toList := by simp [he]
    exact absurd (isDigit_of_mem_toString hm) (by decide)
  rw [Int.toString_eq_repr, Int.toString_eq_repr, Int.repr_eq_if, Int.repr_eq_if] at h
  split at h <;> split at h
  case isTrue.isTrue   =>
    have he := toString_nat_injective h
    omega
  case isTrue.isFalse  => exact absurd h hs
  case isFalse.isTrue  => exact absurd h.symm hs
  case isFalse.isFalse =>
    have he := toString_nat_injective (String.append_right_inj "-" |>.mp h)
    omega

theorem decimalValue_of_isDigit {cs : List Char} (h : ∀ c ∈ cs, c.isDigit = true) :
    decimalValue cs = Nat.ofDigitChars 10 cs 0 := by
  rw [decimalValue, Nat.ofDigitChars_eq_foldl]
  refine List.foldl_ext _ _ _ fun m c hc => ?_
  rw [digitValue?_of_isDigit (h c hc), Option.getD_some]

theorem decimalValue_toString : decimalValue (toString n).toList = n := by
  rw [decimalValue_of_isDigit fun _ => isDigit_of_mem_toString, toList_toString,
    Nat.ofDigitChars_ten_toDigits]

theorem length_toString_pow {k : Nat} (hk : 0 < k) :
    (toString (Nat.pow 10 k)).toList.length = k + 1 := by
  rw [toList_toString]
  refine Nat.le_antisymm ?_ (Nat.lt_of_not_le fun h => ?_)
  case refine_1 =>
    exact (Nat.length_toDigits_le_iff (by decide) k.succ_pos).mpr
      (Nat.pow_lt_pow_right (by decide) k.lt_succ_self)
  case refine_2 => exact Nat.lt_irrefl _ ((Nat.length_toDigits_le_iff (by decide) hk).mp h)

-- A number is read back from how it is written, unless it has too many digits.
theorem natural_toString : natural (toString n).toList =
    if (toString n).toList.length ≤ digitLimit then .ok n
    else .error ⟨(toString n).toList.length⟩ := by
  rw [natural, decimalValue_toString]

end RightLinear.Text
