import RightLinear.Proofs.DFA.Product
import RightLinear.Proofs.Key

namespace RightLinear

section

variable {α : Type} {c : α} {u v x y : List α}

theorem prefix_of_append_cons_eq (h : u ++ c :: x = v ++ c :: y) (hc : c ∉ u) : u <+: v := by
  cases List.append_eq_append_iff.mp h
  case inl h => exact ⟨_, h.choose_spec.left.symm⟩
  case inr h =>
    have ⟨z, hu, hz⟩ := h
    cases z
    case nil      => simp [hu]
    case cons b z =>
      have ⟨hb, _⟩ := List.cons.inj hz
      exact absurd (by simp [hu, hb]) hc

theorem suffix_of_append_cons_eq (h : x ++ c :: u = y ++ c :: v) (hc : c ∉ u) : u <:+ v := by
  have hr : u.reverse ++ c :: x.reverse = v.reverse ++ c :: y.reverse := by
    simpa using congrArg List.reverse h
  exact List.reverse_prefix.mp (prefix_of_append_cons_eq hr (by simpa using hc))

end

theorem exists_unusedCode_eq (used : List Char) :
    ∃ i, unusedCode used = Char.ofNat (0x2500 + i) := by
  rw [unusedCode]
  cases h : ((List.range (used.length + 1)).map fun i => Char.ofNat (0x2500 + i)).find? (· ∉ used)
  case none   => exact ⟨0, rfl⟩
  case some c =>
    apply (List.mem_map.mp (List.mem_of_find?_eq_some h)).imp
    exact fun _ hi => hi.right.symm

-- The characters that can separate the labels of a pair.
def Separates (c : Char) : Prop :=
  c ∈ '_' :: separators ∨ ∃ i, c = Char.ofNat (0x2500 + i)

theorem exists_pairSeparator_eq (left right : List String) :
    ∃ c, pairSeparator left right = .singleton c ∧ Separates c := by
  rw [pairSeparator]
  split
  case isTrue  => exact ⟨'_', rfl, .inl (.head _)⟩
  case isFalse =>
    refine ⟨_, rfl, ?_⟩
    generalize ((left ++ right).flatMap (·.toList)).eraseDups = used
    cases h : separators.find? (· ∉ used)
    case none   => exact .inr (exists_unusedCode_eq used)
    case some c => exact .inl (.tail _ (List.mem_of_find?_eq_some h))

theorem toNat_of_mem_shown : ∀ c ∈ (shown none).toList, 0 < c.toNat ∧ c.toNat < 0x2500 := by
  decide +kernel

theorem Separates.not_mem_shown {c : Char} (h : Separates c) : c ∉ (shown none).toList := by
  cases h
  case inl h =>
    have hs : ∀ c ∈ '_' :: separators, c ∉ (shown none).toList := by decide +kernel
    exact hs c h
  case inr h =>
    -- A number that is no code stands for the null character.
    have hc : 0x2500 ≤ c.toNat ∨ c.toNat = 0 := by
      have ⟨i, hi⟩ := h
      by_cases hv : (0x2500 + i).isValidChar
      case pos =>
        have hc : c.toNat = 0x2500 + i := by rw [hi, Char.ofNat, dif_pos hv]; rfl
        exact .inl (hc ▸ Nat.le_add_right _ _)
      case neg => exact .inr (by rw [hi, Char.ofNat, dif_neg hv]; rfl)
    intro hm
    have hb := toNat_of_mem_shown c hm
    omega

namespace DFA

variable {d d₁ d₂ : DFA String} {s a : String}

-- The first pair without a transition, by state, then in the alphabet's order.
structure FirstMissing (d : DFA String) (s a : String) : Prop where
  state   : s ∈ d.states
  missing : d.next s a = none
  smaller : ∀ q ∈ d.states, q < s → ∀ b ∈ d.alphabet, ∃ t, d.next q b = some t
  earlier : ∃ before after, d.alphabet = before ++ a :: after ∧
    ∀ b ∈ before, ∃ t, d.next s b = some t

-- The first symbol of the alphabet for which a state has no transition.
def firstMissing? (d : DFA String) (s : String) : Option String :=
  d.alphabet.find? fun a => (d.next s a).isNone

theorem head?_missing :
    d.missing.head? = d.states.toList.findSome? fun s => (d.firstMissing? s).map (s, ·) := by
  simp [missing, firstMissing?, next, List.head?_flatMap]

theorem firstMissing?_eq_none_iff :
    d.firstMissing? s = none ↔ ∀ a ∈ d.alphabet, ∃ t, d.next s a = some t := by
  simp [firstMissing?, ← Option.ne_none_iff_exists']

theorem firstMissing?_eq_some_iff : d.firstMissing? s = some a ↔ d.next s a = none ∧
    ∃ before after, d.alphabet = before ++ a :: after ∧ ∀ b ∈ before, ∃ t, d.next s b = some t := by
  simp [firstMissing?, List.find?_eq_some_iff_append, Option.isSome_iff_exists]

theorem head?_missing_iff : d.missing.head? = some (s, a) ↔ d.FirstMissing s a := by
  simp only [head?_missing, List.findSome?_eq_some_iff, Option.map_eq_some_iff,
    Option.map_eq_none_iff, firstMissing?_eq_none_iff, firstMissing?_eq_some_iff]
  constructor
  case mp  =>
    intro ⟨before, _, after, hl, ⟨_, ⟨hm, he⟩, hp⟩, hb⟩
    cases hp
    have hs : s ∈ d.states.toList := by simp [hl]
    refine ⟨hs, hm, fun q hq hlt => hb q ?_, he⟩
    exact (Key.mem_before_iff (fun _ _ => Key.asymm) d.states.sorted hl).mpr ⟨hq, hlt⟩
  case mpr =>
    intro h
    have ⟨before, after, hl⟩ := List.append_of_mem (SortedSet.mem_toList.mpr h.state)
    refine ⟨before, s, after, hl, ⟨a, ⟨h.missing, h.earlier⟩, rfl⟩, fun q hq => ?_⟩
    have ⟨hq, hlt⟩ := (Key.mem_before_iff (fun _ _ => Key.asymm) d.states.sorted hl).mp hq
    exact h.smaller q hq hlt

-- The first missing transition of the first DFA, or else that of the second.
def FirstGap (d₁ d₂ : DFA String) (s a : String) : Prop :=
  d₁.FirstMissing s a ∨ d₁.isComplete = true ∧ d₂.FirstMissing s a

theorem head?_gaps_iff : (d₁.missing ++ d₂.missing).head? = some (s, a) ↔ FirstGap d₁ d₂ s a := by
  simp [FirstGap, List.head?_append, head?_missing_iff, isComplete, Option.or_eq_some_iff]

theorem exists_firstGap_iff :
    (∃ s a, FirstGap d₁ d₂ s a) ↔ ¬(d₁.isComplete = true ∧ d₂.isComplete = true) := by
  have hg : (∃ s a, FirstGap d₁ d₂ s a) ↔ (d₁.missing ++ d₂.missing).head? ≠ none := by
    simp only [← head?_gaps_iff, Option.ne_none_iff_exists', Prod.exists]
  rw [hg, ne_eq, List.head?_eq_none_iff, List.append_eq_nil_iff]
  simp [isComplete]

-- What a product takes for the label of its start.
def startPair (d₁ d₂ : DFA String) : String :=
  pairLabel d₁ d₂ (shown d₁.start, shown d₂.start)

-- The label of the start is that of a pair of states.
def StartsAtPair (d₁ d₂ : DFA String) : Prop :=
  ∃ p ∈ statePairs d₁ d₂, pairLabel d₁ d₂ p = startPair d₁ d₂

theorem startsAtPair_of_starts (hv₁ : d₁.Valid) (hv₂ : d₂.Valid) (hs₁ : d₁.start.isSome = true)
    (hs₂ : d₂.start.isSome = true) : StartsAtPair d₁ d₂ := by
  have ⟨s₁, hs₁⟩ := Option.isSome_iff_exists.mp hs₁
  have ⟨s₂, hs₂⟩ := Option.isSome_iff_exists.mp hs₂
  have hp : (s₁, s₂) ∈ statePairs d₁ d₂ :=
    mem_statePairs_iff.mpr ⟨hv₁.start_mem s₁ hs₁, hv₂.start_mem s₂ hs₂⟩
  exact ⟨(s₁, s₂), hp, by simp [startPair, hs₁, hs₂, shown]⟩

-- A start state is absent, and no label has the word for it where a pair would show it.
def PlainlyAbsent (d₁ d₂ : DFA String) : Prop :=
  d₁.start = none ∧ (∀ s ∈ d₁.states, ¬(shown none).toList <+: s.toList) ∨
    d₂.start = none ∧ ∀ s ∈ d₂.states, ¬(shown none).toList <:+ s.toList

-- The separator begins right after the word, or ends right before it.
theorem PlainlyAbsent.not_startsAtPair (h : PlainlyAbsent d₁ d₂) : ¬StartsAtPair d₁ d₂ := by
  intro ⟨p, hp, he⟩
  have ⟨h₁, h₂⟩ := mem_statePairs_iff.mp hp
  have ⟨c, hs, hc⟩ := exists_pairSeparator_eq d₁.states.toList d₂.states.toList
  have hc := hc.not_mem_shown
  have he := congrArg String.toList he
  simp only [startPair, pairLabel, joined, hs, String.toList_append, String.toList_singleton,
    List.append_assoc, List.singleton_append] at he
  cases h
  case inl h => exact h.right p.1 h₁ (prefix_of_append_cons_eq (h.left ▸ he.symm) hc)
  case inr h => exact h.right p.2 h₂ (suffix_of_append_cons_eq (h.left ▸ he.symm) hc)

-- How a product ends, and when it ends so.
structure Outcome (op : Operation) (d₁ d₂ : DFA String) (r : Except Error (DFA String)) :
    Prop where
  mismatch    : r = .error (.alphabetMismatch d₁.alphabet d₂.alphabet op.title) ↔
    ¬∀ a, a ∈ d₁.alphabet ↔ a ∈ d₂.alphabet
  notComplete : ∀ (s a : String), r = .error (.notComplete s a op.title) ↔
    (∀ a, a ∈ d₁.alphabet ↔ a ∈ d₂.alphabet) ∧ FirstGap d₁ d₂ s a
  invalid     : ∀ f, r = .error (.invalid f) ↔
    (∀ a, a ∈ d₁.alphabet ↔ a ∈ d₂.alphabet) ∧ d₁.isComplete = true ∧ d₂.isComplete = true ∧
      ¬StartsAtPair d₁ d₂ ∧ .startNotState (startPair d₁ d₂) = f
  made        : (∃ e, r = .ok e) ↔
    (∀ a, a ∈ d₁.alphabet ↔ a ∈ d₂.alphabet) ∧ d₁.isComplete = true ∧ d₂.isComplete = true ∧
      StartsAtPair d₁ d₂

variable (op : Operation)

theorem product_of_mismatch (ha : ¬∀ a, a ∈ d₁.alphabet ↔ a ∈ d₂.alphabet) :
    product op d₁ d₂ = .error (.alphabetMismatch d₁.alphabet d₂.alphabet op.title) :=
  if_neg fun hs => ha (sameSymbols_iff.mp hs)

theorem product_of_firstGap (ha : ∀ a, a ∈ d₁.alphabet ↔ a ∈ d₂.alphabet)
    (hg : FirstGap d₁ d₂ s a) : product op d₁ d₂ = .error (.notComplete s a op.title) := by
  have ⟨_, he⟩ := List.head?_eq_some_iff.mp (head?_gaps_iff.mpr hg)
  simp [product, sameSymbols_iff.mpr ha, he]

namespace Aligned

variable (ha : Aligned d₁ d₂)
include ha

theorem product_of_startsAtPair (hs : StartsAtPair d₁ d₂) :
    product op d₁ d₂ = .ok (pairs op d₁ d₂) := by
  have hv : (pairs op d₁ d₂).Valid :=
    ha.valid_pairs fun q hq => mem_states_pairs_iff.mpr (Option.some.inj hq ▸ hs)
  exact ha.product_eq_make.trans hv.make_eq

theorem product_of_not_startsAtPair (hs : ¬StartsAtPair d₁ d₂) :
    product op d₁ d₂ = .error (.invalid (.startNotState (startPair d₁ d₂))) := by
  have hn : startPair d₁ d₂ ∉ (pairs op d₁ d₂).states := fun h => hs (mem_states_pairs_iff.mp h)
  have he : epsilon ∉ (pairs op d₁ d₂).alphabet.eraseDups :=
    fun h => ha.valid₁.epsilon_not_mem (List.mem_eraseDups.mp h)
  exact ha.product_eq_make.trans (Automaton.checked_of_start he rfl hn)

end Aligned

theorem outcome_product (hv₁ : d₁.Valid) (hv₂ : d₂.Valid) :
    Outcome op d₁ d₂ (product op d₁ d₂) := by
  by_cases ha : ∀ a, a ∈ d₁.alphabet ↔ a ∈ d₂.alphabet
  case neg =>
    have h := product_of_mismatch op ha
    constructor <;> simp [h, ha]
  case pos =>
    by_cases hc : d₁.isComplete = true ∧ d₂.isComplete = true
    case neg =>
      have ⟨s, a, hg⟩ := exists_firstGap_iff.mpr hc
      have h := product_of_firstGap op ha hg
      have hc' : d₁.isComplete = true → ¬d₂.isComplete = true := fun h₁ h₂ => hc ⟨h₁, h₂⟩
      constructor
      case notComplete =>
        intro s' a'
        constructor
        case mpr => exact fun h' => product_of_firstGap op ha h'.right
        case mp  =>
          intro h'
          have he : s = s' ∧ a = a' := by simpa [h] using h'
          exact ⟨ha, he.left ▸ he.right ▸ hg⟩
      all_goals simp +contextual [h, ha, hc']
    case pos =>
      have hn : ∀ s a, ¬FirstGap d₁ d₂ s a := fun s a hg => exists_firstGap_iff.mp ⟨s, a, hg⟩ hc
      have hm : Aligned d₁ d₂ := ⟨hv₁, hv₂, hc.left, hc.right, ha⟩
      by_cases hs : StartsAtPair d₁ d₂
      case pos =>
        have h := hm.product_of_startsAtPair op hs
        constructor <;> simp [h, ha, hc, hn, hs]
      case neg =>
        have h := hm.product_of_not_startsAtPair op hs
        constructor <;> simp [h, ha, hc, hn, hs]

theorem product_outcome (hv₁ : d₁.Valid) (hv₂ : d₂.Valid) :
    Outcome .union d₁ d₂ (d₁.union d₂) ∧ Outcome .intersection d₁ d₂ (d₁.intersection d₂) ∧
      ((∃ s a, FirstGap d₁ d₂ s a) ↔ ¬(d₁.isComplete = true ∧ d₂.isComplete = true)) ∧
      (d₁.start.isSome = true → d₂.start.isSome = true → StartsAtPair d₁ d₂) ∧
      (PlainlyAbsent d₁ d₂ → ¬StartsAtPair d₁ d₂) :=
  ⟨outcome_product .union hv₁ hv₂, outcome_product .intersection hv₁ hv₂, exists_firstGap_iff,
    startsAtPair_of_starts hv₁ hv₂, PlainlyAbsent.not_startsAtPair⟩

-- Of the four missing transitions the first is that of the second state with the first symbol.
def gapped : DFA String where
  states      := .ofList ["A", "B", "C"]
  alphabet    := ["b", "a"]
  start       := none
  accepting   := ∅
  transitions := .ofList [("A", .ofList [("a", "C"), ("b", "A")]), ("C", ∅)]

def startless : DFA String :=
  { swapping "p" "q" ["a", "b"] "a" "b" with start := none }

theorem product_outcome_gapped :
    (swapping "p" "q" ["a", "b"] "a" "b").union gapped = .error (.notComplete "B" "b" "union") ∧
    startless.intersection (swapping "r" "t" ["b", "a"] "b" "a") =
      .error (.invalid (.startNotState "None_r")) := by
  have hv₁ : (swapping "p" "q" ["a", "b"] "a" "b").Valid := by decide +kernel
  have hv₂ : (swapping "r" "t" ["b", "a"] "b" "a").Valid := by decide +kernel
  have hv₃ : startless.Valid := by decide +kernel
  have hv₄ : gapped.Valid := by decide +kernel
  have ⟨hu, _⟩ := product_outcome hv₁ hv₄
  have ⟨_, hi, _, _, hn⟩ := product_outcome hv₃ hv₂
  constructor
  case left  =>
    have hg : gapped.FirstMissing "B" "b" := head?_missing_iff.mp (by decide +kernel)
    refine (hu.notComplete "B" "b").mpr ⟨fun a => ?_, .inr ⟨by decide +kernel, hg⟩⟩
    simp [swapping, gapped, or_comm]
  case right =>
    have hp : PlainlyAbsent startless (swapping "r" "t" ["b", "a"] "b" "a") :=
      .inl ⟨rfl, by decide +kernel⟩
    refine (hi.invalid _).mpr
      ⟨fun a => ?symbols, by decide +kernel, by decide +kernel, hn hp, ?label⟩
    case symbols => simp [startless, swapping, or_comm]
    case label   => decide +kernel

-- One accepting state, which is never left.
def looping (s : String) (start : Option String) : DFA String where
  states      := .singleton s
  alphabet    := ["a"]
  start       := start
  accepting   := .singleton s
  transitions := .ofList [(s, .ofList [("a", s)])]

-- A state is called like an absent one, so the intersection of no words with all words is all words.
theorem not_product_outcome_looping : (looping "None" none).Valid ∧
    (looping "q" (some "q")).Valid ∧ (looping "None" none).start = none ∧
    (∀ w, (looping "None" none).accepts w = false) ∧
    ∃ e, (looping "None" none).intersection (looping "q" (some "q")) = .ok e ∧
      e.accepts ["a"] = true := by
  have ha : Aligned (looping "None" none) (looping "q" (some "q")) :=
    ⟨by decide +kernel, by decide +kernel, by decide +kernel, by decide +kernel, fun _ => Iff.rfl⟩
  have hs : StartsAtPair (looping "None" none) (looping "q" (some "q")) :=
    ⟨("None", "q"), by decide +kernel, rfl⟩
  refine ⟨ha.valid₁, ha.valid₂, rfl, fun w => ?empty, _,
    ha.product_of_startsAtPair .intersection hs, ?accepts⟩
  case empty   => simp [accepts, looping]
  case accepts => decide +kernel

end DFA
end RightLinear
