namespace RightLinear

-- What a type needs for a strictly increasing list over it to be determined by its members.
class Key (κ : Type) extends LT κ where
  [decEq : DecidableEq κ]
  [decLT : DecidableLT κ]
  irrefl : ∀ a : κ, ¬a < a
  trans : ∀ a b c : κ, a < b → b < c → a < c
  total : ∀ a b : κ, a < b ∨ a = b ∨ b < a

namespace Key

variable {κ : Type} [Key κ]

instance : Key String where
  irrefl := String.lt_irrefl
  trans _ _ _ := String.lt_trans
  total := Std.lt_trichotomy

instance : Key Int where
  irrefl := Int.lt_irrefl
  trans _ _ _ := Int.lt_trans
  total := Int.lt_trichotomy

instance : DecidableEq κ :=
  Key.decEq

instance : DecidableLT κ :=
  Key.decLT

theorem list_irrefl (l : List κ) : ¬l < l := by
  induction l
  case nil         => simp
  case cons a l ih => simp [List.cons_lt_cons_iff, irrefl, ih]

theorem list_trans (l₁ l₂ l₃ : List κ) (h₁ : l₁ < l₂) (h₂ : l₂ < l₃) : l₁ < l₃ := by
  induction l₁ generalizing l₂ l₃
  case nil          =>
    cases l₃
    case nil       => cases l₂ <;> simp_all
    case cons c l₃ => simp
  case cons a l₁ ih =>
    cases l₂
    case nil       => simp at h₁
    case cons b l₂ =>
      cases l₃
      case nil       => simp at h₂
      case cons c l₃ =>
        rw [List.cons_lt_cons_iff] at h₁ h₂ ⊢
        cases h₁
        case inl h₁ => exact .inl (h₂.elim (trans _ _ _ h₁) fun h => h.left ▸ h₁)
        case inr h₁ =>
          obtain ⟨rfl, h₁⟩ := h₁
          exact h₂.imp_right fun ⟨hb, h₂⟩ => ⟨hb, ih _ _ h₁ h₂⟩

theorem list_total (l₁ l₂ : List κ) : l₁ < l₂ ∨ l₁ = l₂ ∨ l₂ < l₁ := by
  induction l₁ generalizing l₂
  case nil          => cases l₂ <;> simp
  case cons a l₁ ih =>
    cases l₂
    case nil       => simp
    case cons b l₂ =>
      simp only [List.cons_lt_cons_iff, List.cons.injEq]
      rcases total a b with h | rfl | h
      · exact .inl (.inl h)
      · rcases ih l₂ with h | rfl | h
        · exact .inl (.inr ⟨rfl, h⟩)
        · exact .inr (.inl ⟨rfl, rfl⟩)
        · exact .inr (.inr (.inr ⟨rfl, h⟩))
      · exact .inr (.inr (.inl h))

-- Lists in lexicographic order.
instance : Key (List κ) where
  irrefl := list_irrefl
  trans := list_trans
  total := list_total

end Key
end RightLinear
