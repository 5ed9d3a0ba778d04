import RightLinear.DFA.Product
import RightLinear.Proofs.DFA.Complete

namespace RightLinear.DFA

variable {op : Operation} {d₁ d₂ : DFA String} {p : String × String} {q s₁ s₂ t₁ t₂ a : String}
  {w : List String}

-- Two DFAs that have a product.
structure Factors (d₁ d₂ : DFA String) : Prop where
  valid₁    : d₁.Valid
  valid₂    : d₂.Valid
  complete₁ : d₁.isComplete = true
  complete₂ : d₂.isComplete = true
  start₁    : d₁.start.isSome = true
  start₂    : d₂.start.isSome = true
  symbols   : ∀ a, a ∈ d₁.alphabet ↔ a ∈ d₂.alphabet
  code      : LeavesCode (d₁.states.toList ++ d₂.states.toList)

-- Complete DFAs over the same symbols.
structure Aligned (d₁ d₂ : DFA String) : Prop where
  valid₁    : d₁.Valid
  valid₂    : d₂.Valid
  complete₁ : d₁.isComplete = true
  complete₂ : d₂.isComplete = true
  symbols   : ∀ a, a ∈ d₁.alphabet ↔ a ∈ d₂.alphabet

-- With start states they have a product even if labels of pairs are the same.
structure Matched (d₁ d₂ : DFA String) : Prop extends Aligned d₁ d₂ where
  start₁    : d₁.start.isSome = true
  start₂    : d₂.start.isSome = true

theorem Factors.matched (hf : Factors d₁ d₂) : Matched d₁ d₂ :=
  ⟨⟨hf.valid₁, hf.valid₂, hf.complete₁, hf.complete₂, hf.symbols⟩, hf.start₁, hf.start₂⟩

-- The label of a pair of states.
def pairLabel (d₁ d₂ : DFA String) (p : String × String) : String :=
  joined (pairSeparator d₁.states.toList d₂.states.toList) p

-- The pairs of states.
def statePairs (d₁ d₂ : DFA String) : List (String × String) :=
  d₁.states.toList ×ˢ d₂.states.toList

theorem mem_statePairs_iff : p ∈ statePairs d₁ d₂ ↔ p.1 ∈ d₁.states ∧ p.2 ∈ d₂.states :=
  List.mem_product

theorem mem_states_pairs_iff :
    q ∈ (pairs op d₁ d₂).states ↔ ∃ p ∈ statePairs d₁ d₂, pairLabel d₁ d₂ p = q :=
  SortedSet.mem_ofList.trans List.mem_map

theorem sameSymbols_iff : d₁.sameSymbols d₂ = true ↔ ∀ a, a ∈ d₁.alphabet ↔ a ∈ d₂.alphabet := by
  simp only [sameSymbols, Bool.and_eq_true, List.all_eq_true, decide_eq_true_eq]
  exact ⟨fun h a => ⟨h.left a, h.right a⟩, fun h => ⟨fun a => (h a).mp, fun a => (h a).mpr⟩⟩

-- A product, if there is one, is the DFA of the pairs.
theorem make_of_product {e : DFA String} (h : product op d₁ d₂ = .ok e) :
    make (pairs op d₁ d₂) = .ok e := by
  rw [product] at h
  split at h
  case isFalse => cases h
  case isTrue  =>
    split at h
    case h_1 => cases h
    case h_2 => exact h

-- A transition of a pair is one of some pair with its label.
theorem exists_of_next_pairs {t : String} (h : (pairs op d₁ d₂).next q a = some t) :
    ∃ p ∈ statePairs d₁ d₂, pairLabel d₁ d₂ p = q ∧ a ∈ d₁.alphabet ∧
      pairLabel d₁ d₂ ((d₁.next p.1 a).getD "", (d₂.next p.2 a).getD "") = t := by
  have ⟨row, hr, ht⟩ := next_eq_some_iff.mp h
  have hm := Table.mem_of_lookup_eq_some (Table.find?_ofList.symm.trans hr)
  have ⟨p, hp, he⟩ := List.mem_map.mp hm
  have ⟨hq, hrow⟩ := Prod.mk.inj he
  rw [← hrow, find?_totalRow] at ht
  have ⟨ha, ht⟩ := Option.ite_none_right_eq_some.mp ht
  exact ⟨p, hp, hq, ha, Option.some.inj ht⟩

namespace Aligned

variable (ha : Aligned d₁ d₂)
include ha

-- Both components of a pair move, since both DFAs are complete.
theorem exists_target (hp : p ∈ statePairs d₁ d₂) (hm : a ∈ d₁.alphabet) :
    ∃ t ∈ statePairs d₁ d₂, d₁.next p.1 a = some t.1 ∧ d₂.next p.2 a = some t.2 := by
  have ⟨h₁, h₂⟩ := mem_statePairs_iff.mp hp
  have ⟨t₁, ht₁⟩ := isComplete_iff.mp ha.complete₁ _ h₁ a hm
  have ⟨t₂, ht₂⟩ := isComplete_iff.mp ha.complete₂ _ h₂ a ((ha.symbols a).mp hm)
  have ht : (t₁, t₂) ∈ statePairs d₁ d₂ :=
    mem_statePairs_iff.mpr ⟨ha.valid₁.target_mem ht₁, ha.valid₂.target_mem ht₂⟩
  exact ⟨(t₁, t₂), ht, ht₁, ht₂⟩

theorem valid_pairs (hs : ∀ q, (pairs op d₁ d₂).start = some q → q ∈ (pairs op d₁ d₂).states) :
    (pairs op d₁ d₂).Valid := by
  refine .of_next ha.valid₁.alphabet_nodup ha.valid₁.epsilon_not_mem hs ?_ ?_
  · intro q hq
    have ⟨p, hp, he⟩ := List.mem_map.mp (SortedSet.mem_ofList.mp hq)
    exact mem_states_pairs_iff.mpr ⟨p, List.mem_of_mem_filter hp, he⟩
  · intro q a t h
    have ⟨p, hp, hq, hm, ht⟩ := exists_of_next_pairs h
    have ⟨u, hu, h₁, h₂⟩ := ha.exists_target hp hm
    rw [h₁, h₂] at ht
    exact ⟨mem_states_pairs_iff.mpr ⟨p, hp, hq⟩, hm, mem_states_pairs_iff.mpr ⟨u, hu, ht⟩⟩

-- Only the start is left to be checked.
theorem product_eq_make : product op d₁ d₂ = make (pairs op d₁ d₂) := by
  have hn : d₁.missing ++ d₂.missing = [] :=
    List.append_eq_nil_iff.mpr ⟨List.isEmpty_iff.mp ha.complete₁, List.isEmpty_iff.mp ha.complete₂⟩
  rw [product, sameSymbols_iff.mpr ha.symbols, hn]
  rfl

end Aligned

namespace Matched

variable (hm : Matched d₁ d₂)
include hm

theorem exists_start (op : Operation) :
    ∃ p ∈ statePairs d₁ d₂, d₁.start = some p.1 ∧ d₂.start = some p.2 ∧
      (pairs op d₁ d₂).start = some (pairLabel d₁ d₂ p) := by
  have ⟨s₁, hs₁⟩ := Option.isSome_iff_exists.mp hm.start₁
  have ⟨s₂, hs₂⟩ := Option.isSome_iff_exists.mp hm.start₂
  have hp : (s₁, s₂) ∈ statePairs d₁ d₂ :=
    mem_statePairs_iff.mpr ⟨hm.valid₁.start_mem s₁ hs₁, hm.valid₂.start_mem s₂ hs₂⟩
  refine ⟨(s₁, s₂), hp, hs₁, hs₂, ?_⟩
  rw [pairs, hs₁, hs₂]
  rfl

theorem valid_pairs : (pairs op d₁ d₂).Valid :=
  hm.toAligned.valid_pairs fun _ hq =>
    have ⟨p, hp, _, _, hs⟩ := hm.exists_start op
    mem_states_pairs_iff.mpr ⟨p, hp, Option.some.inj (hs.symm.trans hq)⟩

theorem product_eq : product op d₁ d₂ = .ok (pairs op d₁ d₂) :=
  hm.product_eq_make.trans hm.valid_pairs.make_eq

end Matched

-- DFAs over the same symbols have a product once they are complete.
theorem matched_complete (hv₁ : d₁.Valid) (hv₂ : d₂.Valid) (hs₁ : d₁.start.isSome = true)
    (hs₂ : d₂.start.isSome = true) (ha : ∀ a, a ∈ d₁.alphabet ↔ a ∈ d₂.alphabet) :
    Matched d₁.complete d₂.complete where
  valid₁    := hv₁.complete
  valid₂    := hv₂.complete
  complete₁ := isComplete_complete
  complete₂ := isComplete_complete
  start₁    := hs₁
  start₂    := hs₂
  symbols   := ha

-- Nothing else keeps two DFAs from having a product.
theorem mismatch_of_product {e : Error} (hv₁ : d₁.Valid) (hv₂ : d₂.Valid)
    (hs₁ : d₁.start.isSome = true) (hs₂ : d₂.start.isSome = true)
    (h : product op d₁.complete d₂.complete = .error e) :
    .alphabetMismatch d₁.alphabet d₂.alphabet op.title = e := by
  by_cases ha : ∀ a, a ∈ d₁.alphabet ↔ a ∈ d₂.alphabet
  case pos => cases h.symm.trans (matched_complete hv₁ hv₂ hs₁ hs₂ ha).product_eq
  case neg =>
    have hn : ¬d₁.complete.sameSymbols d₂.complete = true := fun h => ha (sameSymbols_iff.mp h)
    rw [product, if_neg hn] at h
    exact Except.error.inj h

namespace Factors

variable (hf : Factors d₁ d₂)
include hf

theorem label_injOn : Set.InjOn (pairLabel d₁ d₂) {p | p ∈ statePairs d₁ d₂} :=
  (pairSeparator_injOn hf.code).mono fun _ => mem_statePairs_iff.mp

theorem size_pairs : (pairs op d₁ d₂).states.size = d₁.states.size * d₂.states.size := by
  have hn : ((statePairs d₁ d₂).map (pairLabel d₁ d₂)).Nodup :=
    List.Nodup.map_on (fun _ hp _ hq => hf.label_injOn hp hq) <|
      d₁.states.nodup_toList.product d₂.states.nodup_toList
  calc
    (pairs op d₁ d₂).states.size
    _ = ((statePairs d₁ d₂).map (pairLabel d₁ d₂)).length := SortedSet.size_ofList_iff.mpr hn
    _ = d₁.states.size * d₂.states.size := by
      rw [List.length_map, statePairs, List.length_product]
      rfl

theorem mem_accepting_pairs_iff (hp : p ∈ statePairs d₁ d₂) :
    pairLabel d₁ d₂ p ∈ (pairs op d₁ d₂).accepting ↔
      op.accepts (p.1 ∈ d₁.accepting) (p.2 ∈ d₂.accepting) = true := by
  have hm : pairLabel d₁ d₂ p ∈ (pairs op d₁ d₂).accepting ↔ ∃ r ∈ (statePairs d₁ d₂).filter
      (fun r => op.accepts (r.1 ∈ d₁.accepting) (r.2 ∈ d₂.accepting)),
        pairLabel d₁ d₂ r = pairLabel d₁ d₂ p :=
    SortedSet.mem_ofList.trans List.mem_map
  rw [hm]
  constructor
  case mp =>
    rintro ⟨r, hr, he⟩
    have ⟨hr, ha⟩ := List.mem_filter.mp hr
    exact hf.label_injOn hr hp he ▸ ha
  case mpr => exact fun ha => ⟨p, List.mem_filter.mpr ⟨hp, ha⟩, rfl⟩

theorem next_pairs (hp : p ∈ statePairs d₁ d₂) : (pairs op d₁ d₂).next (pairLabel d₁ d₂ p) a =
    if a ∈ d₁.alphabet then
      some (pairLabel d₁ d₂ ((d₁.next p.1 a).getD "", (d₂.next p.2 a).getD ""))
    else none := by
  have hr : (pairs op d₁ d₂).transitions.find? (pairLabel d₁ d₂ p) = some (d₁.totalRow fun a =>
      pairLabel d₁ d₂ ((d₁.next p.1 a).getD "", (d₂.next p.2 a).getD "")) :=
    Table.find?_ofList_map hf.label_injOn hp
  rw [next, row, hr, Option.getD_some, find?_totalRow]

theorem exists_next (op : Operation) (hp : p ∈ statePairs d₁ d₂) (ha : a ∈ d₁.alphabet) :
    ∃ t ∈ statePairs d₁ d₂, d₁.next p.1 a = some t.1 ∧ d₂.next p.2 a = some t.2 ∧
      (pairs op d₁ d₂).next (pairLabel d₁ d₂ p) a = some (pairLabel d₁ d₂ t) := by
  have ⟨t, ht, h₁, h₂⟩ := hf.matched.exists_target hp ha
  refine ⟨t, ht, h₁, h₂, ?_⟩
  rw [hf.next_pairs hp, if_pos ha, h₁, h₂, Option.getD_some, Option.getD_some]

theorem valid_pairs : (pairs op d₁ d₂).Valid :=
  hf.matched.valid_pairs

theorem isComplete_pairs : (pairs op d₁ d₂).isComplete = true := by
  refine isComplete_iff.mpr fun q hq a ha => ?_
  have ⟨p, hp, he⟩ := mem_states_pairs_iff.mp hq
  have ⟨t, _, _, _, hn⟩ := hf.exists_next op hp ha
  exact ⟨pairLabel d₁ d₂ t, he ▸ hn⟩

-- The runs of the factors, side by side.
theorem run_pairs (op : Operation) (hp : p ∈ statePairs d₁ d₂) (hw : ∀ a ∈ w, a ∈ d₁.alphabet) :
    ∃ t ∈ statePairs d₁ d₂, d₁.run (some p.1) w = some t.1 ∧ d₂.run (some p.2) w = some t.2 ∧
      (pairs op d₁ d₂).run (some (pairLabel d₁ d₂ p)) w = some (pairLabel d₁ d₂ t) := by
  induction w generalizing p
  case nil => exact ⟨p, hp, run_nil, run_nil, run_nil⟩
  case cons a w hi =>
    have ⟨ha, hw⟩ := List.forall_mem_cons.mp hw
    have ⟨u, hu, h₁, h₂, h⟩ := hf.exists_next op hp ha
    simp only [run_cons, Option.bind_some, h₁, h₂, h]
    exact hi hu hw

-- A run goes through the pairs of the states of two runs.
theorem accepts_pairs : (pairs op d₁ d₂).accepts w = op.accepts (d₁.accepts w) (d₂.accepts w) := by
  by_cases hw : ∀ a ∈ w, a ∈ d₁.alphabet
  case neg =>
    have hw₂ : ¬∀ a ∈ w, a ∈ d₂.alphabet := by simpa only [hf.symbols] using hw
    have hr : (pairs op d₁ d₂).accepts w = false := hf.valid_pairs.accepts_eq_false hw
    rw [hr, hf.valid₁.accepts_eq_false hw, hf.valid₂.accepts_eq_false hw₂]
    cases op <;> rfl
  case pos =>
    have ⟨p, hp, h₁, h₂, h⟩ := hf.matched.exists_start op
    have ⟨t, ht, hr₁, hr₂, hr⟩ := hf.run_pairs op hp hw
    simp only [accepts, h₁, h₂, h, hr₁, hr₂, hr]
    rw [Bool.eq_iff_iff, decide_eq_true_iff, hf.mem_accepting_pairs_iff ht]

theorem product_eq : product op d₁ d₂ = .ok (pairs op d₁ d₂) :=
  hf.matched.product_eq

end Factors

-- DFAs over the same symbols have a product once they are complete.
theorem factors_complete (hv₁ : d₁.Valid) (hv₂ : d₂.Valid) (hs₁ : d₁.start.isSome = true)
    (hs₂ : d₂.start.isSome = true) (ha : ∀ a, a ∈ d₁.alphabet ↔ a ∈ d₂.alphabet)
    (hl : LeavesCode (d₁.states.toList ++ d₂.states.toList)) :
    Factors d₁.complete d₂.complete where
  valid₁    := hv₁.complete
  valid₂    := hv₂.complete
  complete₁ := isComplete_complete
  complete₂ := isComplete_complete
  start₁    := hs₁
  start₂    := hs₂
  symbols   := ha
  code      := leavesCode_complete hl

theorem union_intersection (hv₁ : d₁.Valid) (hv₂ : d₂.Valid) (hc₁ : d₁.isComplete = true)
    (hc₂ : d₂.isComplete = true) (hs₁ : d₁.start.isSome = true) (hs₂ : d₂.start.isSome = true)
    (ha : ∀ a, a ∈ d₁.alphabet ↔ a ∈ d₂.alphabet)
    (hl : LeavesCode (d₁.states.toList ++ d₂.states.toList)) :
    ∃ u i, d₁.union d₂ = .ok u ∧ d₁.intersection d₂ = .ok i ∧
      (u.states.size = d₁.states.size * d₂.states.size ∧ u.Valid ∧ u.isComplete = true ∧
        u.alphabet = d₁.alphabet ∧ ∀ w, u.accepts w = (d₁.accepts w || d₂.accepts w)) ∧
      (i.states.size = d₁.states.size * d₂.states.size ∧ i.Valid ∧ i.isComplete = true ∧
        i.alphabet = d₁.alphabet ∧ ∀ w, i.accepts w = (d₁.accepts w && d₂.accepts w)) := by
  have hf : Factors d₁ d₂ := ⟨hv₁, hv₂, hc₁, hc₂, hs₁, hs₂, ha, hl⟩
  exact ⟨pairs .union d₁ d₂, pairs .intersection d₁ d₂, hf.product_eq, hf.product_eq,
    ⟨hf.size_pairs, hf.valid_pairs, hf.isComplete_pairs, rfl, fun _ => hf.accepts_pairs⟩,
    ⟨hf.size_pairs, hf.valid_pairs, hf.isComplete_pairs, rfl, fun _ => hf.accepts_pairs⟩⟩

-- Two states, one of which is left for the other and back by the first symbol.
def swapping (s t : String) (alphabet : List String) (a b : String) : DFA String where
  states      := .ofList [s, t]
  alphabet    := alphabet
  start       := some s
  accepting   := .singleton t
  transitions := .ofList [(s, .ofList [(a, t), (b, s)]), (t, .ofList [(a, s), (b, t)])]

-- An underscore would give two pairs of these states the same label.
theorem union_intersection_swapping :
    ∃ u i, (swapping "p" "p_q" ["a", "b"] "a" "b").union
        (swapping "r" "q_r" ["b", "a"] "b" "a") = .ok u ∧
      (swapping "p" "p_q" ["a", "b"] "a" "b").intersection
        (swapping "r" "q_r" ["b", "a"] "b" "a") = .ok i ∧
      u.states.size = 4 ∧ i.states.size = 4 := by
  have hv₁ : (swapping "p" "p_q" ["a", "b"] "a" "b").Valid := by decide +kernel
  have hv₂ : (swapping "r" "q_r" ["b", "a"] "b" "a").Valid := by decide +kernel
  have ⟨u, i, hu, hi, ⟨hsu, _⟩, ⟨hsi, _⟩⟩ := union_intersection hv₁ hv₂ (by decide +kernel)
    (by decide +kernel) rfl rfl (fun a => by simp [swapping, or_comm]) ⟨'─', by decide +kernel⟩
  exact ⟨u, i, hu, hi, hsu.trans (by decide +kernel), hsi.trans (by decide +kernel)⟩

end RightLinear.DFA
