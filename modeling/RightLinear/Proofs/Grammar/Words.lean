import RightLinear.Proofs.Grammar.Language
import RightLinear.Word

namespace RightLinear.Grammar

variable {g : Grammar} {rules : List (String × Shape)} {a b x : String} {word : List String}
  {heads : Labels}

theorem length_eq_one_iff : a.length = 1 ↔ ∃ c : Char, a = .singleton c := by
  rw [← String.length_toList, List.length_eq_one_iff]
  exact exists_congr fun c => by simp [← String.toList_inj]

theorem symbolsOf_join (hw : ∀ a ∈ word, a.length = 1) : symbolsOf (String.join word) = word := by
  induction word
  case nil => rfl
  case cons a word hi =>
    have ⟨ha, hw⟩ := List.forall_mem_cons.mp hw
    have ⟨c, hc⟩ := length_eq_one_iff.mp ha
    have hi := hi hw
    simp only [symbolsOf, String.toList_join] at hi
    simp [symbolsOf, String.toList_join, hc, hi]

theorem length_join (hw : ∀ a ∈ word, a.length = 1) : (String.join word).length = word.length := by
  have h := congrArg List.length (symbolsOf_join hw)
  rwa [symbolsOf, List.length_map, String.length_toList] at h

theorem join_symbolsOf : String.join (symbolsOf x) = x := by
  simp [symbolsOf, ← String.toList_inj, String.toList_join, List.flatMap_map]

theorem derives_symbolsOf_iff {s : String} {n : Nat} : x.length ≤ n ∧ g.Derives s (symbolsOf x) ↔
    ∃ word, g.Derives s word ∧ word.length ≤ n ∧ String.join word = x := by
  constructor
  case mp =>
    rintro ⟨hl, hd⟩
    exact ⟨_, hd, by rwa [symbolsOf, List.length_map, String.length_toList], join_symbolsOf⟩
  case mpr =>
    rintro ⟨word, hd, hl, rfl⟩
    have single : ∀ a ∈ word, a.length = 1 := fun a ha => (hd.symbol_mem a ha).right
    exact ⟨length_join single ▸ hl, (symbolsOf_join single).symm ▸ hd⟩

theorem vanishes_iff : vanishes rules heads = true ↔ ∃ left ∈ heads, (left, .empty) ∈ rules := by
  simp only [vanishes, List.any_eq_true, Bool.and_eq_true, decide_eq_true_eq, Prod.exists]
  constructor
  case mp =>
    rintro ⟨left, shape, hr, hl, rfl⟩
    exact ⟨left, hl, hr⟩
  case mpr => exact fun ⟨left, hl, hr⟩ => ⟨left, .empty, hr, hl, rfl⟩

theorem ends_iff : ends rules heads a = true ↔ ∃ left ∈ heads, (left, .terminal a) ∈ rules := by
  simp only [ends, List.any_eq_true, Bool.and_eq_true, decide_eq_true_eq, Prod.exists]
  constructor
  case mp =>
    rintro ⟨left, shape, hr, hl, rfl⟩
    exact ⟨left, hl, hr⟩
  case mpr => exact fun ⟨left, hl, hr⟩ => ⟨left, .terminal a, hr, hl, rfl⟩

theorem mem_follow_iff : b ∈ follow rules heads a ↔ ∃ left ∈ heads, (left, .step a b) ∈ rules := by
  simp only [follow, SortedSet.mem_ofList, List.mem_filterMap, Prod.exists]
  constructor
  case mp =>
    rintro ⟨left, shape, hr, h⟩
    cases shape
    case step a' b' =>
      simp only [Bool.and_eq_true, decide_eq_true_eq, Option.ite_none_right_eq_some,
        Option.some.injEq] at h
      obtain ⟨⟨hl, rfl⟩, rfl⟩ := h
      exact ⟨left, hl, hr⟩
    all_goals simp at h
  case mpr =>
    rintro ⟨left, hl, hr⟩
    exact ⟨left, .step a b, hr, by simp [hl]⟩

theorem mem_letters_iff : a ∈ letters rules ↔
    ∃ left, (left, .terminal a) ∈ rules ∨ ∃ b, (left, .step a b) ∈ rules := by
  simp only [letters, SortedSet.mem_ofList, List.mem_filterMap, Prod.exists]
  constructor
  case mp =>
    rintro ⟨left, shape, hr, h⟩
    cases shape
    case empty         => simp at h
    case terminal a'   => exact ⟨left, .inl (Option.some.inj h ▸ hr)⟩
    case step a' b     => exact ⟨left, .inr ⟨b, Option.some.inj h ▸ hr⟩⟩
  case mpr =>
    rintro ⟨left, hr | ⟨b, hr⟩⟩
    · exact ⟨left, .terminal a, hr, rfl⟩
    · exact ⟨left, .step a b, hr, rfl⟩

theorem letters_single (h : g.shapes = .ok rules) (ha : a ∈ letters rules) :
    ∃ c : Char, a = .singleton c := by
  rcases mem_letters_iff.mp ha with ⟨left, hr | ⟨b, hr⟩⟩
  · have ⟨c, hc, _⟩ := (mem_shapes_terminal_iff h).mp hr
    exact ⟨c, hc⟩
  · have ⟨c, _, hc, _⟩ := (mem_shapes_step_iff h).mp hr
    exact ⟨c, hc⟩

theorem length_of_mem_letters (h : g.shapes = .ok rules) (ha : a ∈ letters rules) : a.length = 1 :=
  length_eq_one_iff.mpr (letters_single h ha)

-- The words of some non-terminals, and perhaps the empty word.
def WordOf (g : Grammar) (heads : Labels) (ended : Bool) (word : List String) : Prop :=
  ended = true ∧ word = [] ∨ ∃ left ∈ heads, g.Derives left word

theorem wordOf_nil_iff (h : g.shapes = .ok rules) {ended : Bool} :
    g.WordOf heads ended [] ↔ (ended || vanishes rules heads) = true := by
  simp [WordOf, derives_nil_iff h, vanishes_iff]

-- What is left of a word after its first letter.
theorem wordOf_cons_iff (h : g.shapes = .ok rules) {ended : Bool} :
    g.WordOf heads ended (a :: word) ↔
      g.WordOf (follow rules heads a) (ends rules heads a) word := by
  simp only [WordOf, derives_cons_iff h, ends_iff, mem_follow_iff, List.cons_ne_nil, and_false,
    false_or]
  constructor
  case mp =>
    rintro ⟨left, hl, ⟨hr, rfl⟩ | ⟨b, hr, hd⟩⟩
    · exact .inl ⟨⟨left, hl, hr⟩, rfl⟩
    · exact .inr ⟨b, ⟨left, hl, hr⟩, hd⟩
  case mpr =>
    rintro (⟨⟨left, hl, hr⟩, rfl⟩ | ⟨b, ⟨left, hl, hr⟩, hd⟩)
    · exact ⟨left, hl, .inl ⟨hr, rfl⟩⟩
    · exact ⟨left, hl, .inr ⟨b, hr, hd⟩⟩

theorem WordOf.letter_mem (h : g.shapes = .ok rules) {ended : Bool}
    (hw : g.WordOf heads ended (a :: word)) : a ∈ letters rules := by
  rcases hw with ⟨_, hw⟩ | ⟨left, _, hd⟩
  · cases hw
  · rcases (derives_cons_iff h).mp hd with ⟨hr, _⟩ | ⟨b, hr, _⟩
    · exact mem_letters_iff.mpr ⟨left, .inl hr⟩
    · exact mem_letters_iff.mpr ⟨left, .inr ⟨b, hr⟩⟩

theorem symbolsOf_append_singleton {c : Char} :
    symbolsOf (String.singleton c ++ x) = .singleton c :: symbolsOf x := by
  simp [symbolsOf]

theorem eq_singleton_append (hx : x ≠ "") : ∃ (c : Char) (y : String), x = .singleton c ++ y := by
  cases hc : x.toList
  case nil       => simp_all
  case cons c cs => exact ⟨c, .ofList cs, by simp [← String.toList_inj, hc]⟩

theorem mem_here_iff (h : g.shapes = .ok rules) {ended : Bool} :
    x ∈ (if ended || vanishes rules heads then [""] else []) ↔
      x = "" ∧ g.WordOf heads ended (symbolsOf x) := by
  by_cases hx : x = ""
  case pos => simp [hx, symbolsOf, wordOf_nil_iff h]
  case neg => split <;> simp [hx]

theorem mem_wordsFrom_succ_iff (h : g.shapes = .ok rules) {n : Nat} {ended : Bool} :
    x ∈ wordsFrom rules (n + 1) ended heads ↔ x = "" ∧ g.WordOf heads ended (symbolsOf x) ∨
      heads ≠ ∅ ∧ ∃ a ∈ letters rules,
        ∃ y ∈ wordsFrom rules n (ends rules heads a) (follow rules heads a), a ++ y = x := by
  rw [wordsFrom]
  by_cases he : heads = ∅
  case pos => simp only [SortedSet.isEmpty_iff, he, if_true, mem_here_iff h]; simp
  case neg =>
    simp only [SortedSet.isEmpty_iff, he, if_false, List.mem_append, mem_here_iff h,
      List.mem_flatMap, List.mem_map, SortedSet.mem_toList, not_false_eq_true, ne_eq, true_and]

theorem WordOf.heads_ne_empty {ended : Bool} (hw : g.WordOf heads ended (a :: word)) :
    heads ≠ ∅ := by
  rintro rfl
  simp [WordOf] at hw

-- The induction is on the bound: what is left of a word after its first letter is one shorter.
theorem mem_wordsFrom_iff (h : g.shapes = .ok rules) {n : Nat} {ended : Bool} :
    x ∈ wordsFrom rules n ended heads ↔ x.length ≤ n ∧ g.WordOf heads ended (symbolsOf x) := by
  induction n generalizing ended heads x
  case zero =>
    rw [wordsFrom, ite_self, mem_here_iff h, Nat.le_zero, String.length_eq_zero_iff]
  case succ n hi =>
    simp only [mem_wordsFrom_succ_iff h, hi]
    constructor
    case mp =>
      rintro (⟨rfl, hw⟩ | ⟨_, a, ha, y, ⟨hl, hw⟩, rfl⟩)
      · exact ⟨Nat.zero_le _, hw⟩
      · have ⟨c, hc⟩ := letters_single h ha
        subst hc
        refine ⟨by simp only [String.length_append, String.length_singleton]; omega, ?_⟩
        rw [symbolsOf_append_singleton]
        exact (wordOf_cons_iff h).mpr hw
    case mpr =>
      rintro ⟨hl, hw⟩
      by_cases hx : x = ""
      case pos => exact .inl ⟨hx, hw⟩
      case neg =>
        have ⟨c, y, hxy⟩ := eq_singleton_append hx
        subst hxy
        simp only [String.length_append, String.length_singleton] at hl
        rw [symbolsOf_append_singleton] at hw
        exact .inr ⟨hw.heads_ne_empty, _, hw.letter_mem h, y,
          ⟨by omega, (wordOf_cons_iff h).mp hw⟩, rfl⟩

theorem mem_derive_iff {s : String} (hs : g.start = some s) (h : g.shapes = .ok rules) (n : Int) :
    ∃ words, g.derive n = .ok words ∧
      ∀ x, x ∈ words ↔ x.length ≤ n.toNat ∧ g.Derives s (symbolsOf x) := by
  refine ⟨.ofList (wordsFrom rules n.toNat false (.singleton s)), by rw [derive, hs, h]; rfl, ?_⟩
  intro x
  simp [mem_wordsFrom_iff h, WordOf]

end RightLinear.Grammar
