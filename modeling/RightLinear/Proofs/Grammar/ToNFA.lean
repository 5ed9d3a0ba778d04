import RightLinear.Grammar.ToNFA
import RightLinear.Proofs.Grammar.Words
import RightLinear.Proofs.NFA.Growth

namespace RightLinear

namespace Grammar

variable {g : Grammar} {n : NFA} {rules : List (String × Shape)} {s q t a : String}
  {u v w : List String}

-- What the NFA of a grammar consists of.
structure Translated (g : Grammar) (s : String) (rules : List (String × Shape)) (n : NFA) :
    Prop where
  alphabet : n.alphabet = g.terminals
  start : n.start = some s
  accepting : n.accepting = .singleton g.finalState
  targets : ∀ {q a t}, t ∈ n.targets q a ↔
    ∃ left shape, (left, shape) ∈ rules ∧ arrow g.finalState left shape = ⟨q, a, t⟩
  states : ∀ {q}, q ∈ n.states ↔ q = s ∨ q = g.finalState ∨
    ∃ left shape, (left, shape) ∈ rules ∧
      (q = left ∨ q = (arrow g.finalState left shape).target)

theorem arrow_source {final left : String} {shape : Shape} :
    (arrow final left shape).source = left := by
  cases shape <;> rfl

-- The NFA of a grammar before it has arrows.
def frame (g : Grammar) (s : String) : NFA :=
  ({ NFA.empty with alphabet := g.terminals }.setStart s).addAccepting g.finalState

def arrows (g : Grammar) (rules : List (String × Shape)) : List (Arrow String) :=
  rules.map fun rule => arrow g.finalState rule.1 rule.2

theorem toNFA_eq_addArrows (hs : g.start = some s) (hr : g.shapes = .ok rules) :
    g.toNFA = .ok ((g.frame s).addArrows (g.arrows rules)) := by
  rw [toNFA, hs, hr, NFA.addArrows, arrows, List.foldl_map]
  rfl

theorem toNFA_translated (hs : g.start = some s) (hr : g.shapes = .ok rules) :
    ∃ n, g.toNFA = .ok n ∧ g.Translated s rules n := by
  obtain ⟨ha, hst, hac⟩ := NFA.addArrows_rest (g.frame s) (g.arrows rules)
  refine ⟨_, toNFA_eq_addArrows hs hr, ⟨ha, hst, ?_, ?_, ?_⟩⟩
  · exact hac.trans rfl
  · intro q a t
    rw [NFA.mem_targets_addArrows]
    simp [arrows, frame, NFA.targets, NFA.addAccepting, NFA.setStart, NFA.addState, NFA.empty]
  · intro q
    rw [NFA.mem_states_addArrows]
    simp only [arrows, frame, NFA.addAccepting, NFA.setStart, NFA.addState, NFA.empty,
      List.mem_map, Prod.exists, SortedSet.mem_insert, SortedSet.not_mem_empty, or_false]
    rw [or_comm, or_comm (a := q = g.finalState), or_assoc]
    refine or_congr_right <| or_congr_right ⟨?_, ?_⟩
    · rintro ⟨_, ⟨left, shape, hm, rfl⟩, hq⟩
      rw [arrow_source] at hq
      exact ⟨left, shape, hm, hq⟩
    · rintro ⟨left, shape, hm, hq⟩
      exact ⟨_, ⟨left, shape, hm, rfl⟩, arrow_source.symm ▸ hq⟩

theorem exists_start_of_toNFA (h : g.toNFA = .ok n) :
    ∃ s rules, g.start = some s ∧ g.shapes = .ok rules := by
  rw [toNFA] at h
  cases hs : g.start
  case none   => simp [hs] at h
  case some s =>
    simp only [hs] at h
    obtain ⟨rules, hr, _⟩ := exists_of_bind_eq_ok h
    exact ⟨s, rules, rfl, hr⟩

namespace Translated

theorem mem_targets_epsilon_iff (h : g.Translated s rules n) (hr : g.shapes = .ok rules) :
    t ∈ n.targets q epsilon ↔ t = g.finalState ∧ (q, .empty) ∈ rules := by
  rw [h.targets]
  constructor
  case mp =>
    rintro ⟨left, shape, hm, he⟩
    cases shape <;> simp only [arrow, Arrow.mk.injEq] at he <;> have ⟨hl, ha, ht⟩ := he
    case empty => exact ⟨ht.symm, hl ▸ hm⟩
    case terminal =>
      have ⟨_, _, _, hm⟩ := (mem_shapes_terminal_iff hr).mp hm
      exact absurd (ha ▸ hm) g.epsilon_not_mem_terminals
    case step =>
      have ⟨_, _, _, _, _, hm, _⟩ := (mem_shapes_step_iff hr).mp hm
      exact absurd (ha ▸ hm) g.epsilon_not_mem_terminals
  case mpr =>
    rintro ⟨rfl, hm⟩
    exact ⟨q, .empty, hm, rfl⟩

theorem mem_targets_symbol_iff (h : g.Translated s rules n) (ha : a ≠ epsilon) :
    t ∈ n.targets q a ↔
      t = g.finalState ∧ (q, .terminal a) ∈ rules ∨ (q, .step a t) ∈ rules := by
  rw [h.targets]
  constructor
  case mp =>
    rintro ⟨left, shape, hm, he⟩
    cases shape <;> simp only [arrow, Arrow.mk.injEq] at he <;> obtain ⟨rfl, rfl, rfl⟩ := he
    case empty    => exact absurd rfl ha
    case terminal => exact .inl ⟨rfl, hm⟩
    case step     => exact .inr hm
  case mpr =>
    rintro (⟨rfl, hm⟩ | hm)
    · exact ⟨q, .terminal a, hm, rfl⟩
    · exact ⟨q, .step a t, hm, rfl⟩

theorem mem_arrows_iff (h : g.Translated s rules n) {r : Arrow String} :
    r ∈ n.arrows ↔ ∃ left shape, (left, shape) ∈ rules ∧ arrow g.finalState left shape = r :=
  NFA.mem_arrows_iff.trans h.targets

theorem valid (h : g.Translated s rules n) (hr : g.shapes = .ok rules) : n.Valid where
  alphabet_nodup := h.alphabet ▸ g.terminals_nodup
  epsilon_not_mem := h.alphabet ▸ g.epsilon_not_mem_terminals
  start_mem q hq := h.states.mpr <| .inl <| Option.some.inj (hq.symm.trans h.start)
  accepting_mem q hq := by
    rw [h.accepting, SortedSet.mem_singleton] at hq
    exact h.states.mpr <| .inr <| .inl hq
  source_mem r hm := by
    have ⟨left, shape, hm, he⟩ := h.mem_arrows_iff.mp hm
    exact h.states.mpr <| .inr <| .inr ⟨left, shape, hm, .inl <| he ▸ arrow_source⟩
  target_mem r hm := by
    have ⟨left, shape, hm, he⟩ := h.mem_arrows_iff.mp hm
    exact h.states.mpr <| .inr <| .inr ⟨left, shape, hm, .inr <| he ▸ rfl⟩
  symbol_mem r hm := by
    have ⟨left, shape, hm, he⟩ := h.mem_arrows_iff.mp hm
    rw [h.alphabet, ← he]
    cases shape
    case empty    => exact .inr rfl
    case terminal =>
      have ⟨_, _, _, ha⟩ := (mem_shapes_terminal_iff hr).mp hm
      exact .inl ha
    case step     =>
      have ⟨_, _, _, _, _, ha, _⟩ := (mem_shapes_step_iff hr).mp hm
      exact .inl ha

end Translated

-- The label of the accepting state is longer than any non-terminal after a terminal.
theorem ne_finalState_of_step (hr : g.shapes = .ok rules) (hm : (q, .step a t) ∈ rules) :
    t ≠ g.finalState := by
  have ⟨_, d, _, hd, _⟩ := (mem_shapes_step_iff hr).mp hm
  rintro rfl
  have hl := congrArg String.length hd
  simp only [finalState, String.length_append, String.length_singleton] at hl
  have : "F_".length = 2 := rfl
  omega

open Computability

-- The words that lead from a state to the accepting one.
def leading (g : Grammar) (q : String) : Language String :=
  g.language q * (g.language g.finalState)∗

theorem mem_kstar_of_leading (h : q = g.finalState ∧ w = [] ∨ w ∈ g.leading q)
    (hq : q = g.finalState) : w ∈ (g.language g.finalState)∗ := by
  rw [← Language.one_add_self_mul_kstar_eq_kstar, Language.mem_add, Language.mem_one]
  subst hq
  exact h.imp And.right id

namespace Translated

theorem mem_leading_of_path (h : g.Translated s rules n) (hr : g.shapes = .ok rules)
    (hw : epsilon ∉ w) (p : n.Path q w g.finalState) :
    q = g.finalState ∧ w = [] ∨ w ∈ g.leading q := by
  generalize hf : g.finalState = f at p
  induction p
  case nil => exact .inl ⟨rfl, rfl⟩
  case skip q t u w ht _ hi =>
    have ⟨ht, hm⟩ := (h.mem_targets_epsilon_iff hr).mp ht
    have hk := mem_kstar_of_leading (hf ▸ hi hw hf) ht
    exact .inr <| Language.append_mem_mul (a := []) ((derives_nil_iff hr).mpr hm) hk
  case read q t u a w ht _ hi =>
    have ⟨ha, hw⟩ : a ≠ epsilon ∧ epsilon ∉ w := by simpa [eq_comm] using hw
    rcases (h.mem_targets_symbol_iff ha).mp ht with ⟨ht, hm⟩ | hm
    · have hk := mem_kstar_of_leading (hf ▸ hi hw hf) ht
      have hd := (derives_cons_iff hr).mpr (.inl ⟨hm, rfl⟩)
      exact .inr <| Language.append_mem_mul (a := [a]) hd hk
    · rcases hi hw hf with ⟨ht, _⟩ | hl
      · exact absurd (ht.trans hf.symm) (ne_finalState_of_step hr hm)
      · have ⟨u, hu, v, hv, he⟩ := Language.mem_mul.mp hl
        have hd := (derives_cons_iff hr).mpr (.inr ⟨t, hm, hu⟩)
        exact .inr <| he ▸ Language.append_mem_mul (a := a :: u) hd hv

theorem path_of_derives (h : g.Translated s rules n) (hr : g.shapes = .ok rules)
    (hd : g.Derives q w) : n.Path q w g.finalState := by
  induction w generalizing q
  case nil =>
    have hm := (derives_nil_iff hr).mp hd
    exact .skip ((h.mem_targets_epsilon_iff hr).mpr ⟨rfl, hm⟩) (.nil _)
  case cons a w hi =>
    have ha : a ≠ epsilon := by
      rintro rfl
      exact absurd (hd.symbol_mem _ (List.mem_cons_self ..)).left g.epsilon_not_mem_terminals
    rcases (derives_cons_iff hr).mp hd with ⟨hm, rfl⟩ | ⟨t, hm, hd⟩
    · exact .read ((h.mem_targets_symbol_iff ha).mpr <| .inl ⟨rfl, hm⟩) (.nil _)
    · exact .read ((h.mem_targets_symbol_iff ha).mpr <| .inr hm) (hi hd)

theorem path_of_mem_kstar (h : g.Translated s rules n) (hr : g.shapes = .ok rules)
    (hk : w ∈ (g.language g.finalState)∗) : n.Path g.finalState w g.finalState := by
  obtain ⟨words, rfl, hl⟩ := Language.mem_kstar.mp hk
  clear hk
  induction words
  case nil => exact .nil _
  case cons u words hi =>
    have ⟨hu, hl⟩ := List.forall_mem_cons.mp hl
    rw [List.flatten_cons]
    exact (h.path_of_derives hr hu).append (hi hl)

theorem path_iff (h : g.Translated s rules n) (hr : g.shapes = .ok rules) (hw : epsilon ∉ w) :
    n.Path q w g.finalState ↔ q = g.finalState ∧ w = [] ∨ w ∈ g.leading q := by
  constructor
  case mp => exact h.mem_leading_of_path hr hw
  case mpr =>
    rintro (⟨rfl, rfl⟩ | hl)
    · exact .nil _
    · have ⟨u, hu, v, hv, he⟩ := Language.mem_mul.mp hl
      exact he ▸ (h.path_of_derives hr hu).append (h.path_of_mem_kstar hr hv)

-- A path to the accepting state is a derivation, after which it may go on with derivations from the
-- accepting state's own label, should the grammar use that label as well.
theorem accepts_iff (h : g.Translated s rules n) (hr : g.shapes = .ok rules) (hw : epsilon ∉ w) :
    n.accepts w = true ↔ s = g.finalState ∧ w = [] ∨ w ∈ g.leading s := by
  rw [← h.path_iff hr hw, NFA.accepts_iff_path]
  simp [h.start, h.accepting]

theorem accepts_of_derives (h : g.Translated s rules n) (hr : g.shapes = .ok rules)
    (hd : g.Derives s w) : n.accepts w = true := by
  refine NFA.accepts_iff_path.mpr ⟨s, h.start, g.finalState, ?_, h.path_of_derives hr hd⟩
  rw [h.accepting, SortedSet.mem_singleton]

end Translated

-- What the label of the accepting state derives adds nothing to the words of the start symbol.
structure AbsorbsFinal (g : Grammar) (s : String) : Prop where
  nil : s = g.finalState → g.Derives s []
  append : ∀ u v, g.Derives s u → g.Derives g.finalState v → g.Derives s (u ++ v)

theorem AbsorbsFinal.append_kstar (h : g.AbsorbsFinal s) (hu : g.Derives s u)
    (hv : v ∈ (g.language g.finalState)∗) : g.Derives s (u ++ v) := by
  obtain ⟨words, rfl, hl⟩ := Language.mem_kstar.mp hv
  clear hv
  induction words generalizing u
  case nil => simpa using hu
  case cons v words hi =>
    have ⟨hv, hl⟩ := List.forall_mem_cons.mp hl
    rw [List.flatten_cons, ← List.append_assoc]
    exact hi (h.append u v hu hv) hl

-- A label that no production has on its left side derives nothing.
theorem not_derives_of_fresh (hq : ∀ p ∈ g.productions, p.left ≠ q) : ¬g.Derives q w := by
  rintro (⟨hp⟩ | ⟨hp, _⟩ | ⟨hp, _⟩) <;> exact hq _ hp rfl

theorem absorbsFinal_of_fresh (hs : s ≠ g.finalState)
    (hf : ∀ p ∈ g.productions, p.left ≠ g.finalState) : g.AbsorbsFinal s where
  nil h            := absurd h hs
  append _ _ _ hv  := absurd hv (not_derives_of_fresh hf)

namespace Translated

variable (h : g.Translated s rules n) (hr : g.shapes = .ok rules)
include h hr

theorem derives_of_accepts (ha : g.AbsorbsFinal s) (hw : epsilon ∉ w) (hacc : n.accepts w = true) :
    g.Derives s w := by
  cases (h.accepts_iff hr hw).mp hacc
  case inl hs =>
    have ⟨hs, hw⟩ := hs
    exact hw ▸ ha.nil hs
  case inr hl =>
    obtain ⟨u, hu, v, hv, rfl⟩ := Language.mem_mul.mp hl
    exact ha.append_kstar hu hv

theorem absorbsFinal_of_exact
    (he : ∀ w, (∀ a ∈ w, a ∈ g.terminals ∧ a.length = 1) → (n.accepts w = true ↔ g.Derives s w)) :
    g.AbsorbsFinal s where
  nil hs := (he [] (by simp)).mp <| (h.accepts_iff hr (by simp)).mpr <| .inl ⟨hs, rfl⟩
  append u v hu hv := by
    have hw : ∀ a ∈ u ++ v, a ∈ g.terminals ∧ a.length = 1 :=
      List.forall_mem_append.mpr ⟨hu.symbol_mem, hv.symbol_mem⟩
    have hk : v ∈ (g.language g.finalState)∗ :=
      Language.mem_kstar.mpr ⟨[v], by simp, List.forall_mem_singleton.mpr hv⟩
    have hn := epsilon_not_mem_of_terminals fun a ha => (hw a ha).left
    apply (he _ hw).mp
    apply (h.accepts_iff hr hn).mpr
    exact .inr (Language.append_mem_mul hu hk)

theorem exact_iff :
    (∀ w, (∀ a ∈ w, a ∈ g.terminals ∧ a.length = 1) → (n.accepts w = true ↔ g.Derives s w)) ↔
      g.AbsorbsFinal s := by
  constructor
  case mp  => exact h.absorbsFinal_of_exact hr
  case mpr =>
    intro ha w hw
    have hn := epsilon_not_mem_of_terminals fun a ha => (hw a ha).left
    exact ⟨h.derives_of_accepts hr ha hn, h.accepts_of_derives hr⟩

end Translated

theorem derives_iff_mem_derive (hs : g.start = some s) (hr : g.shapes = .ok rules)
    (hw : ∀ a ∈ w, a ∈ g.terminals ∧ a.length = 1) :
    g.Derives s w ↔ ∃ words, g.derive w.length = .ok words ∧ String.join w ∈ words := by
  have hw : ∀ a ∈ w, a.length = 1 := fun a ha => (hw a ha).right
  have ⟨words, hd, hm⟩ := mem_derive_iff hs hr w.length
  simp [hd, hm, length_join hw, symbolsOf_join hw]

-- The accepting state shares its label with whatever the grammar calls by that name. The NFA
-- accepts the words of the grammar exactly when this adds none, and always if the grammar does not
-- use the label as a start symbol or on a left side.
theorem toNFA_accepts (hs : g.start = some s) (hg : g.Supported) : ∃ n, g.toNFA = .ok n ∧
    (∀ w, (∀ a ∈ w, a ∈ g.terminals) →
      (n.accepts w = true ↔ s = g.finalState ∧ w = [] ∨ w ∈ g.leading s)) ∧
    (∀ w, g.Derives s w → n.accepts w = true) ∧
    ((∀ w, (∀ a ∈ w, a ∈ g.terminals ∧ a.length = 1) →
      (n.accepts w = true ↔ g.Derives s w)) ↔ g.AbsorbsFinal s) ∧
    (s ≠ g.finalState → (∀ p ∈ g.productions, p.left ≠ g.finalState) → g.AbsorbsFinal s) ∧
    ∀ w, (∀ a ∈ w, a ∈ g.terminals ∧ a.length = 1) →
      (g.Derives s w ↔ ∃ words, g.derive w.length = .ok words ∧ String.join w ∈ words) := by
  have ⟨rules, hr⟩ := hg.shapes_eq_ok
  have ⟨n, hn, h⟩ := toNFA_translated hs hr
  refine ⟨n, hn, ?_, ?_, h.exact_iff hr, absorbsFinal_of_fresh, ?_⟩
  · exact fun w hw => h.accepts_iff hr (epsilon_not_mem_of_terminals hw)
  · exact fun w => h.accepts_of_derives hr
  · exact fun w => derives_iff_mem_derive hs hr

-- A grammar with a production for the label of its accepting state.
def selfNamed : Grammar where
  name         := "G1"
  nonTerminals := ["S", "F_G1"]
  terminals    := ["a", "b"]
  start        := some "S"
  productions  := [⟨"S", "a"⟩, ⟨"F_G1", "b"⟩]
  terminals_unmarked := by decide +kernel

theorem toNFA_accepts_selfNamed : ∃ n, selfNamed.toNFA = .ok n ∧
    (n.accepts ["a"] = true ↔ "S" = selfNamed.finalState ∧ ["a"] = [] ∨
      ["a"] ∈ selfNamed.leading "S") :=
  have ⟨n, hn, h, _⟩ := toNFA_accepts (g := selfNamed) (s := "S") rfl (by decide +kernel)
  ⟨n, hn, h ["a"] (by decide +kernel)⟩

theorem toNFA_accepts_underived : ∃ n, selfNamed.toNFA = .ok n ∧
    n.accepts ["a", "b"] = true ∧ ¬selfNamed.Derives "S" ["a", "b"] := by
  have hr : selfNamed.shapes = .ok [("S", .terminal "a"), ("F_G1", .terminal "b")] := by
    decide +kernel
  have ⟨n, hn, h⟩ := toNFA_translated (s := "S") rfl hr
  refine ⟨n, hn, (h.accepts_iff hr (by decide +kernel)).mpr <| .inr ?_, ?_⟩
  · have ha : selfNamed.Derives "S" ["a"] := (derives_cons_iff hr).mpr (by simp)
    have hb : selfNamed.Derives selfNamed.finalState ["b"] :=
      (derives_cons_iff hr).mpr <| .inl ⟨by decide +kernel, rfl⟩
    exact Language.append_mem_mul ha <|
      Language.mem_kstar.mpr ⟨[["b"]], rfl, List.forall_mem_singleton.mpr hb⟩
  · simp [derives_cons_iff hr]

end Grammar
end RightLinear
