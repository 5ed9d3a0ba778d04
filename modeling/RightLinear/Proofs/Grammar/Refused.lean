import RightLinear.Proofs.Grammar.ToNFA
import RightLinear.Proofs.NFA.Determinize

namespace RightLinear.Grammar

variable {g : Grammar} {p : Production} {e : Error} {d : DFA String} {n : NFA}

-- What keeps a production from being one of the three shapes.
inductive Obstructs (g : Grammar) (p : Production) : Obstacle → Prop
  | alone (hl : p.right.length = 1) (he : p.right ≠ epsilon) (ha : p.right ∉ g.terminals) :
    Obstructs g p (.notTerminal p.right)
  | first {a b : Char} (hr : p.right = .ofList [a, b]) (ha : .singleton a ∉ g.terminals) :
    Obstructs g p (.notTerminal (.singleton a))
  | second {a b : Char} (hr : p.right = .ofList [a, b]) (ha : .singleton a ∈ g.terminals)
    (hb : .singleton b ∈ g.terminals) : Obstructs g p (.terminalInPlace (.singleton b))
  | shape (h₁ : p.right.length ≠ 1) (h₂ : p.right.length ≠ 2) : Obstructs g p .shape

theorem ne_epsilon_of_pair {a b : Char} (hr : p.right = .ofList [a, b]) : p.right ≠ epsilon := by
  simp [hr, epsilon, ← String.toList_inj]

theorem exists_obstructs_of_classify (h : g.classify p = .error e) :
    ∃ o, g.Obstructs p o ∧ .unsupported p.left p.right o = e := by
  rw [classify] at h
  split at h
  case isTrue => cases h
  case isFalse he =>
    split at h
    case h_1 a hr =>
      split at h
      case isTrue     => cases h
      case isFalse ha =>
        exact ⟨_, .alone (by simp [← String.length_toList, hr]) he ha, Except.error.inj h⟩
    case h_2 a b hr =>
      have hr : p.right = .ofList [a, b] := by simp [← String.toList_inj, hr]
      split at h
      case isTrue ha => exact ⟨_, .first hr ha, Except.error.inj h⟩
      case isFalse ha =>
        split at h
        case isTrue hb => exact ⟨_, .second hr (by simpa using ha) hb, Except.error.inj h⟩
        case isFalse   => cases h
    case h_3 h₁ h₂ =>
      refine ⟨_, .shape (fun hl => ?_) (fun hl => ?_), Except.error.inj h⟩
      · obtain ⟨a, ha⟩ := length_eq_one_iff.mp hl
        exact h₁ a (by rw [ha, String.toList_singleton])
      · obtain ⟨a, b, hr⟩ := List.length_eq_two.mp (String.length_toList.trans hl)
        exact h₂ a b hr

theorem classify_of_obstructs {o : Obstacle} (ho : g.Obstructs p o) :
    g.classify p = .error (.unsupported p.left p.right o) := by
  cases ho
  case alone hl he ha =>
    have ⟨a, hr⟩ := length_eq_one_iff.mp hl
    rw [classify, if_neg he]
    simp [hr, hr ▸ ha]
  case first a b hr ha =>
    rw [classify, if_neg (ne_epsilon_of_pair hr)]
    simp [hr, ha]
  case second a b hr ha hb =>
    rw [classify, if_neg (ne_epsilon_of_pair hr)]
    simp [hr, ha, hb]
  case shape h₁ h₂ =>
    have he : p.right ≠ epsilon := fun he => h₁ (by rw [he]; rfl)
    rw [classify, if_neg he]
    split
    case h_1 a hr   => exact absurd (by rw [← String.length_toList, hr]; rfl) h₁
    case h_2 a b hr => exact absurd (by rw [← String.length_toList, hr]; rfl) h₂
    case h_3        => rfl

theorem classify_eq_error_iff : g.classify p = .error e ↔
    ∃ o, g.Obstructs p o ∧ .unsupported p.left p.right o = e :=
  ⟨exists_obstructs_of_classify, fun ⟨_, ho, he⟩ => he ▸ classify_of_obstructs ho⟩

-- A production of one of the three shapes.
def Linear (g : Grammar) (p : Production) : Prop :=
  ∀ o, ¬g.Obstructs p o

theorem exists_classify_iff : (∃ shape, g.classify p = .ok shape) ↔ g.Linear p := by
  constructor
  case mp =>
    intro ⟨shape, hs⟩ o ho
    cases hs.symm.trans (classify_of_obstructs ho)
  case mpr =>
    intro hl
    cases h : g.classify p
    case ok shape => exact ⟨shape, rfl⟩
    case error    =>
      have ⟨o, ho, _⟩ := exists_obstructs_of_classify h
      exact absurd ho (hl o)

-- Why a grammar has no automaton. Of its productions the first that is not right-linear counts.
inductive Refused (g : Grammar) : Error → Prop
  | noStart (hs : g.start = none) : Refused g (.invalid (.noStartSymbol g.name))
  | production {before after : List Production} {p : Production} {o : Obstacle}
    (hs : g.start ≠ none) (hp : g.productions = before ++ p :: after)
    (hb : ∀ q ∈ before, g.Linear q) (ho : g.Obstructs p o) :
    Refused g (.unsupported p.left p.right o)

theorem classify_rule_eq_error_iff :
    (do return (p.left, ← g.classify p) : Except Error _) = .error e ↔ g.classify p = .error e := by
  cases g.classify p <;> simp [bind, Except.bind, pure, Except.pure]

theorem exists_classify_rule_iff :
    (∃ rule, (do return (p.left, ← g.classify p) : Except Error _) = .ok rule) ↔ g.Linear p := by
  rw [← exists_classify_iff]
  cases g.classify p <;> simp [bind, Except.bind, pure, Except.pure]

theorem shapes_eq_error_iff : g.shapes = .error e ↔ ∃ before p after,
    g.productions = before ++ p :: after ∧ (∀ q ∈ before, g.Linear q) ∧
      ∃ o, g.Obstructs p o ∧ .unsupported p.left p.right o = e := by
  simp only [shapes, mapM_eq_error_iff, exists_classify_rule_iff, classify_rule_eq_error_iff,
    classify_eq_error_iff]

theorem toNFA_eq_error_iff : g.toNFA = .error e ↔ g.Refused e := by
  cases hs : g.start
  case none =>
    rw [toNFA, hs]
    constructor
    case mp => exact fun h => Except.error.inj h ▸ .noStart hs
    case mpr =>
      intro h
      cases h
      case noStart    => rfl
      case production => contradiction
  case some s =>
    simp only [toNFA, hs, bind_eq_error_iff, shapes_eq_error_iff]
    constructor
    case mp =>
      intro h
      cases h
      case inl h =>
        obtain ⟨before, p, after, hp, hb, o, ho, he⟩ := h
        exact he ▸ .production (hs ▸ Option.some_ne_none s) hp hb ho
      case inr h =>
        obtain ⟨_, _, h⟩ := h
        cases h
    case mpr =>
      intro h
      cases h
      case noStart hn          => cases hs.symm.trans hn
      case production hp hb ho => exact .inl ⟨_, _, _, hp, hb, _, ho, rfl⟩

theorem valid_of_toNFA (h : g.toNFA = .ok n) :
    n.Valid ∧ n.alphabet = g.terminals ∧ ∃ s, n.start = some s := by
  have ⟨s, rules, hs, hr⟩ := exists_start_of_toNFA h
  have ⟨m, hm, ht⟩ := toNFA_translated hs hr
  cases h.symm.trans hm
  exact ⟨ht.valid hr, ht.alphabet, s, ht.start⟩

-- A grammar that is refused for one of its productions.
def RefusesProduction (g : Grammar) : Prop :=
  ∃ p ∈ g.productions, ∃ o, g.Obstructs p o ∧ g.toNFA = .error (.unsupported p.left p.right o)

theorem refusesProduction_iff (hs : g.start ≠ none) : g.RefusesProduction ↔ ¬g.Supported := by
  constructor
  case mp =>
    rintro ⟨p, hp, o, ho, _⟩ hg
    exact exists_classify_iff.mp (hg p hp) o ho
  case mpr =>
    intro hg
    cases h : g.toNFA
    case ok =>
      have ⟨_, _, _, hr⟩ := exists_start_of_toNFA h
      exact absurd (supported_of_shapes hr) hg
    case error =>
      cases toNFA_eq_error_iff.mp h
      case noStart hn         => exact absurd hn hs
      case production hp _ ho => exact ⟨_, hp ▸ List.mem_append_right _ (.head _), _, ho, h⟩

-- A grammar is refused when it has no start symbol, or else for its first production that is not
-- right-linear.
theorem toDFA_eq_error_iff : g.toDFA = .error e ↔ g.Refused e := by
  rw [← toNFA_eq_error_iff, toDFA, bind_eq_error_iff, or_iff_left]
  intro ⟨n, hn, hd⟩
  have ⟨_, _, s, hs⟩ := valid_of_toNFA hn
  cases hd.symm.trans (NFA.toDFA_eq hs)

-- A grammar that has an automaton.
structure Buildable (g : Grammar) : Prop where
  start  : g.start ≠ none
  linear : ∀ p ∈ g.productions, g.Linear p

theorem exists_toDFA_iff : (∃ d, g.toDFA = .ok d) ↔ g.Buildable := by
  constructor
  case mp =>
    intro ⟨d, h⟩
    have ⟨n, hn, _⟩ := exists_of_bind_eq_ok h
    have ⟨s, rules, hs, hr⟩ := exists_start_of_toNFA hn
    exact ⟨hs ▸ nofun, fun p hp => exists_classify_iff.mp (supported_of_shapes hr p hp)⟩
  case mpr =>
    intro hg
    cases h : g.toDFA
    case ok d    => exact ⟨d, rfl⟩
    case error e =>
      cases toDFA_eq_error_iff.mp h
      case noStart hs          => exact absurd hs hg.start
      case production hp _ ho =>
        exact absurd ho (hg.linear _ (hp ▸ List.mem_append_right _ (.head _)) _)

-- The DFA of a grammar has its terminals and a start state.
structure Built (g : Grammar) (d : DFA String) : Prop where
  valid    : d.Valid
  alphabet : d.alphabet = g.terminals
  start    : d.start.isSome = true

theorem built_of_toDFA (h : g.toDFA = .ok d) : g.Built d := by
  have ⟨n, hn, hd⟩ := exists_of_bind_eq_ok h
  have ⟨hv, ha, _⟩ := valid_of_toNFA hn
  have ⟨s, hs, he⟩ := NFA.exists_of_toDFA_eq_ok hd
  exact he ▸ ⟨hv.valid_subsetDFA (hv.closure_start_sub hs), ha, rfl⟩

end RightLinear.Grammar
