import Mathlib.Computability.Language
import RightLinear.Grammar.Derive
import RightLinear.Proofs.Failure

namespace RightLinear.Grammar

variable {g : Grammar} {rules : List (String × Shape)} {p : Production} {left a b : String}
  {word : List String}

theorem epsilon_not_mem_terminals (g : Grammar) : epsilon ∉ g.terminals :=
  fun h => absurd (g.terminals_unmarked _ h) (by decide +kernel)

theorem epsilon_not_mem_of_terminals (hw : ∀ a ∈ word, a ∈ g.terminals) : epsilon ∉ word :=
  fun he => g.epsilon_not_mem_terminals (hw _ he)

theorem classify_empty_iff : g.classify p = .ok .empty ↔ p.right = epsilon := by
  by_cases he : p.right = epsilon
  case pos => simp [classify, he]
  case neg =>
    simp only [classify, he, if_false, iff_false]
    split
    case h_1 => split <;> simp
    case h_2 => split <;> [simp; (split <;> simp)]
    case h_3 => simp

theorem classify_terminal_iff : g.classify p = .ok (.terminal a) ↔
    ∃ c : Char, a = .singleton c ∧ p.right = a ∧ a ∈ g.terminals := by
  constructor
  case mp =>
    intro h
    rw [classify] at h
    split at h
    case isTrue => simp at h
    case isFalse =>
      split at h
      case h_1 c hc =>
        have hr : p.right = .singleton c := by simp [← String.toList_inj, hc]
        split at h
        case isTrue hm =>
          simp only [Except.ok.injEq, Shape.terminal.injEq] at h
          exact ⟨c, h.symm, hr.trans h, h ▸ hr ▸ hm⟩
        case isFalse => simp at h
      case h_2 => split at h <;> [simp at h; (split at h <;> simp at h)]
      case h_3 => simp at h
  case mpr =>
    rintro ⟨c, rfl, hr, hm⟩
    have he : p.right ≠ epsilon := fun he => g.epsilon_not_mem_terminals (he ▸ hr ▸ hm)
    rw [classify, if_neg he]
    simp [hr, hm]

theorem classify_step_iff : g.classify p = .ok (.step a b) ↔
    ∃ c d : Char, a = .singleton c ∧ b = .singleton d ∧ p.right = .ofList [c, d] ∧
      a ∈ g.terminals ∧ b ∉ g.terminals := by
  constructor
  case mp =>
    intro h
    rw [classify] at h
    split at h
    case isTrue => simp at h
    case isFalse =>
      split at h
      case h_1 => split at h <;> simp at h
      case h_2 c d hc =>
        have hr : p.right = .ofList [c, d] := by simp [← String.toList_inj, hc]
        split at h
        case isTrue => simp at h
        case isFalse ha =>
          split at h
          case isTrue => simp at h
          case isFalse hb =>
            simp only [Except.ok.injEq, Shape.step.injEq] at h
            have ⟨ha', hb'⟩ := h
            subst ha' hb'
            exact ⟨c, d, rfl, rfl, hr, by simpa using ha, hb⟩
      case h_3 => simp at h
  case mpr =>
    rintro ⟨c, d, rfl, rfl, hr, ha, hb⟩
    have he : p.right ≠ epsilon := by
      simp [hr, epsilon, ← String.toList_inj]
    rw [classify, if_neg he]
    simp [hr, ha, hb]

-- Every production has one of the three shapes.
def Supported (g : Grammar) : Prop :=
  ∀ p ∈ g.productions, ∃ shape, g.classify p = .ok shape

instance : Decidable g.Supported :=
  decidable_of_iff (∀ p ∈ g.productions, (g.classify p).isOk = true) <| by
    refine forall₂_congr fun p _ => ?_
    cases g.classify p <;> simp [Except.isOk, Except.toBool]

theorem classify_rule_eq_ok_iff {shape : Shape} :
    (do return (p.left, ← g.classify p) : Except Error _) = .ok (left, shape) ↔
      p.left = left ∧ g.classify p = .ok shape := by
  cases g.classify p <;> simp [bind, Except.bind, pure, Except.pure]

theorem Supported.shapes_eq_ok (h : g.Supported) : ∃ rules, g.shapes = .ok rules :=
  exists_mapM_eq_ok fun p hp =>
    have ⟨shape, hs⟩ := h p hp
    ⟨(p.left, shape), classify_rule_eq_ok_iff.mpr ⟨rfl, hs⟩⟩

theorem supported_of_shapes (h : g.shapes = .ok rules) : g.Supported := fun p hp =>
  have ⟨(_, shape), _, hr⟩ := forall_of_mapM_eq_ok h p hp
  ⟨shape, (classify_rule_eq_ok_iff.mp hr).right⟩

theorem mem_shapes_iff {shape : Shape} (h : g.shapes = .ok rules) :
    (left, shape) ∈ rules ↔ ∃ p ∈ g.productions, p.left = left ∧ g.classify p = .ok shape := by
  simp only [mem_of_mapM_eq_ok h, classify_rule_eq_ok_iff]

theorem mem_shapes_empty_iff (h : g.shapes = .ok rules) :
    (left, .empty) ∈ rules ↔ ⟨left, epsilon⟩ ∈ g.productions := by
  simp only [mem_shapes_iff h, classify_empty_iff]
  constructor
  case mp =>
    rintro ⟨⟨_, _⟩, hp, rfl, rfl⟩
    exact hp
  case mpr => exact fun hp => ⟨_, hp, rfl, rfl⟩

theorem mem_shapes_terminal_iff (h : g.shapes = .ok rules) : (left, .terminal a) ∈ rules ↔
    ∃ c : Char, a = .singleton c ∧ ⟨left, a⟩ ∈ g.productions ∧ a ∈ g.terminals := by
  simp only [mem_shapes_iff h, classify_terminal_iff]
  constructor
  case mp =>
    rintro ⟨⟨_, _⟩, hp, rfl, c, hc, rfl, ha⟩
    exact ⟨c, hc, hp, ha⟩
  case mpr =>
    rintro ⟨c, hc, hp, ha⟩
    exact ⟨_, hp, rfl, c, hc, rfl, ha⟩

theorem mem_shapes_step_iff (h : g.shapes = .ok rules) : (left, .step a b) ∈ rules ↔
    ∃ c d : Char, a = .singleton c ∧ b = .singleton d ∧ ⟨left, .ofList [c, d]⟩ ∈ g.productions ∧
      a ∈ g.terminals ∧ b ∉ g.terminals := by
  simp only [mem_shapes_iff h, classify_step_iff]
  constructor
  case mp =>
    rintro ⟨⟨_, _⟩, hp, rfl, c, d, hc, hd, rfl, ha, hb⟩
    exact ⟨c, d, hc, hd, hp, ha, hb⟩
  case mpr =>
    rintro ⟨c, d, hc, hd, hp, ha, hb⟩
    exact ⟨_, hp, rfl, c, d, hc, hd, rfl, ha, hb⟩

theorem derives_nil_iff (h : g.shapes = .ok rules) :
    g.Derives left [] ↔ (left, .empty) ∈ rules := by
  rw [mem_shapes_empty_iff h]
  constructor
  case mp =>
    rintro ⟨hp⟩
    exact hp
  case mpr => exact .empty

theorem derives_cons_iff (h : g.shapes = .ok rules) : g.Derives left (a :: word) ↔
    (left, .terminal a) ∈ rules ∧ word = [] ∨
      ∃ b, (left, .step a b) ∈ rules ∧ g.Derives b word := by
  simp only [mem_shapes_terminal_iff h, mem_shapes_step_iff h]
  constructor
  case mp =>
    intro hd
    cases hd
    case terminal ha hp    => exact .inl ⟨⟨_, rfl, hp, ha⟩, rfl⟩
    case step c d ha hp hd =>
      have ⟨shape, hs⟩ := supported_of_shapes h _ hp
      cases shape
      case empty =>
        have he := classify_empty_iff.mp hs
        simp [epsilon, ← String.toList_inj] at he
      case terminal =>
        have ⟨c, hc, he, _⟩ := classify_terminal_iff.mp hs
        simp [hc, ← String.toList_inj] at he
      case step =>
        have ⟨c', d', hc, hb, he, ha', hn⟩ := classify_step_iff.mp hs
        have ⟨rfl, rfl⟩ : c = c' ∧ d = d' := by simpa using String.ofList_injective he
        exact .inr ⟨_, ⟨c, d, rfl, rfl, hp, ha, hb ▸ hn⟩, hd⟩
  case mpr =>
    rintro (⟨⟨c, rfl, hp, ha⟩, rfl⟩ | ⟨b, ⟨c, d, rfl, rfl, hp, ha, _⟩, hd⟩)
    · exact .terminal hp ha
    · exact .step hp ha hd

-- Derived words consist of terminals that are single characters.
theorem Derives.symbol_mem (h : g.Derives left word) :
    ∀ a ∈ word, a ∈ g.terminals ∧ a.length = 1 := by
  induction h
  case empty           => simp
  case terminal ha     => simpa using ha
  case step ha _ hi    => exact List.forall_mem_cons.mpr ⟨⟨ha, by simp⟩, hi⟩

def language (g : Grammar) (left : String) : Language String :=
  {word | g.Derives left word}

-- What a grammar generates is what its start symbol derives.
def Generates (g : Grammar) (word : List String) : Prop :=
  ∃ s, g.start = some s ∧ g.Derives s word

end RightLinear.Grammar
