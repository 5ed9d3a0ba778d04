import RightLinear.Proofs.Grammar.Enumeration
import RightLinear.Proofs.Grammar.Refused

namespace RightLinear.Grammar

variable {g g' : Grammar} {p : Production} {rules rules' : List (String × Shape)} {left : String}
  {word : List String}

structure Rearranged (g g' : Grammar) : Prop where
  name        : g.name = g'.name
  start       : g.start = g'.start
  terminals   : g.terminals = g'.terminals
  productions : ∀ p, p ∈ g.productions ↔ p ∈ g'.productions

namespace Rearranged

theorem symm (h : g.Rearranged g') : g'.Rearranged g :=
  ⟨h.name.symm, h.start.symm, h.terminals.symm, fun p => (h.productions p).symm⟩

theorem classify_eq (h : g.Rearranged g') : g.classify p = g'.classify p := by
  simp only [classify, h.terminals]

theorem supported_iff (h : g.Rearranged g') : g.Supported ↔ g'.Supported := by
  simp only [Supported, h.productions, h.classify_eq]

theorem mem_rules_iff (h : g.Rearranged g') (hr : g.shapes = .ok rules)
    (hr' : g'.shapes = .ok rules') (rule : String × Shape) : rule ∈ rules ↔ rule ∈ rules' := by
  simp only [mem_shapes_iff hr, mem_shapes_iff hr', h.productions, h.classify_eq]

theorem finalState_eq (h : g.Rearranged g') : g.finalState = g'.finalState := by
  rw [finalState, finalState, h.name]

theorem frame_eq (h : g.Rearranged g') (s : String) : g.frame s = g'.frame s := by
  rw [frame, frame, h.terminals, h.finalState_eq]

-- The same productions become the same arrows, which may be added in any order.
theorem toNFA_eq (h : g.Rearranged g') (hg : g.Supported) : g.toNFA = g'.toNFA := by
  have ⟨rules, hr⟩ := hg.shapes_eq_ok
  have ⟨rules', hr'⟩ := (h.supported_iff.mp hg).shapes_eq_ok
  cases hs : g.start
  case none   => rw [toNFA, toNFA, ← h.start, hs, h.name]
  case some s =>
    have arrows : ∀ r, r ∈ g.arrows rules ↔ r ∈ g'.arrows rules' := by
      simp only [arrows, List.mem_map, h.mem_rules_iff hr hr', h.finalState_eq, implies_true]
    rw [toNFA_eq_addArrows hs hr, toNFA_eq_addArrows (h.start ▸ hs) hr', h.frame_eq,
      NFA.addArrows_eq_of_mem_iff arrows]

theorem toDFA_eq (h : g.Rearranged g') (hg : g.Supported) : g.toDFA = g'.toDFA := by
  rw [toDFA, toDFA, h.toNFA_eq hg]

theorem derives (h : g.Rearranged g') (hd : g.Derives left word) : g'.Derives left word := by
  induction hd
  case empty hp          => exact .empty ((h.productions _).mp hp)
  case terminal hp ha    => exact .terminal ((h.productions _).mp hp) (h.terminals ▸ ha)
  case step hp ha _ hi   => exact .step ((h.productions _).mp hp) (h.terminals ▸ ha) hi

theorem derives_iff (h : g.Rearranged g') : g.Derives left word ↔ g'.Derives left word :=
  ⟨h.derives, h.symm.derives⟩

theorem derive_eq (h : g.Rearranged g') (hg : g.Supported) (bound : Int) :
    g.derive bound = g'.derive bound := by
  cases hs : g.start
  case none   => rw [derive, derive, ← h.start, hs]
  case some s =>
    obtain ⟨rules, hr⟩ := hg.shapes_eq_ok
    obtain ⟨rules', hr'⟩ := (h.supported_iff.mp hg).shapes_eq_ok
    obtain ⟨words, hd, hw⟩ := mem_derive_iff hs hr bound
    obtain ⟨words', hd', hw'⟩ := mem_derive_iff (h.start ▸ hs) hr' bound
    have same : words = words' := by
      ext x
      rw [hw, hw', h.derives_iff]
    rw [hd, hd', same]

theorem search_eq (h : g.Rearranged g') (hg : g.Supported) (bound : Int) :
    g.search bound = g'.search bound := by
  rw [Grammar.search_eq, Grammar.search_eq, h.derive_eq hg]

-- Neither the order of the productions nor their number nor the declared non-terminals show in what
-- is built from a grammar. One without a start symbol is refused for that, before its productions
-- are looked at.
theorem built_alike (h : g.Rearranged g') :
    (∀ s, g.start = some s →
      g.RefusesProduction ∧ g'.RefusesProduction ∨
      ∃ n d, g.toNFA = .ok n ∧ g'.toNFA = .ok n ∧ g.toDFA = .ok d ∧ g'.toDFA = .ok d ∧
        ∀ bound, ∃ words, g.derive bound = .ok words ∧ g'.derive bound = .ok words ∧
          g.search bound = .ok (.some words) ∧ g'.search bound = .ok (.some words)) ∧
    (g.start = none → ∀ bound,
      g.toNFA = .error (.invalid (.noStartSymbol g.name)) ∧ g'.toNFA = g.toNFA ∧
      g.derive bound = .ok ∅ ∧ g'.derive bound = .ok ∅) := by
  refine ⟨fun s hs => ?_, fun hs bound => ?_⟩
  · have some : g.start ≠ none := hs ▸ Option.some_ne_none s
    by_cases hg : g.Supported
    case neg =>
      refine .inl ⟨(refusesProduction_iff some).mpr hg, ?_⟩
      exact (refusesProduction_iff (h.start ▸ some)).mpr <| mt h.supported_iff.mpr hg
    case pos =>
      have ⟨rules, hr⟩ := hg.shapes_eq_ok
      have ⟨n, hn, _⟩ := toNFA_translated hs hr
      have ⟨d, hd⟩ := exists_toDFA_iff.mpr ⟨some, fun p hp => exists_classify_iff.mp (hg p hp)⟩
      refine .inr ⟨n, d, hn, h.toNFA_eq hg ▸ hn, hd, h.toDFA_eq hg ▸ hd, fun bound => ?_⟩
      have ⟨words, hw, _⟩ := mem_derive_iff hs hr bound
      have enumerated : g.search bound = .ok (.some words) := by
        rw [Grammar.search_eq, hw, Except.map]
      exact ⟨words, hw, h.derive_eq hg bound ▸ hw, enumerated, h.search_eq hg bound ▸ enumerated⟩
  · have refused : g.toNFA = .error (.invalid (.noStartSymbol g.name)) := by
      rw [toNFA, hs]
    refine ⟨refused, ?_, ?_, ?_⟩
    · rw [toNFA, toNFA, ← h.start, hs, h.name]
    · rw [derive, hs]
    · rw [derive, ← h.start, hs]

end Rearranged

-- A production of `cyclic` twice, the others in another order, and no non-terminal declared.
def cyclicShuffled : Grammar where
  name         := "G"
  terminals    := ["b", "a"]
  start        := some "S"
  productions  := [⟨"Z", "bS"⟩, ⟨"S", "aU"⟩, ⟨"A", "ε"⟩, ⟨"S", "b"⟩, ⟨"S", "aA"⟩, ⟨"A", "aS"⟩,
    ⟨"S", "b"⟩]
  terminals_nodup    := cyclic.terminals_nodup
  terminals_unmarked := cyclic.terminals_unmarked

theorem Rearranged.built_alike_cyclic : cyclic.Rearranged cyclicShuffled ∧
    ∃ n d, cyclic.toNFA = .ok n ∧ cyclicShuffled.toNFA = .ok n ∧
      cyclic.toDFA = .ok d ∧ cyclicShuffled.toDFA = .ok d := by
  have h : cyclic.Rearranged cyclicShuffled :=
    { name := rfl, start := rfl, terminals := rfl,
      productions := by simp only [cyclic, cyclicShuffled, List.mem_cons]; tauto }
  refine ⟨h, ?_⟩
  rcases h.built_alike.left "S" rfl with ⟨refused, _⟩ | ⟨n, d, hn, hn', hd, hd', _⟩
  · exact absurd (by decide +kernel) <| (refusesProduction_iff (by decide)).mp refused
  · exact ⟨n, d, hn, hn', hd, hd'⟩

end RightLinear.Grammar
