import Mathlib.Data.List.Nodup
import RightLinear.Proofs.DFA.Run

namespace RightLinear.DFA

variable {σ : Type} [Key σ] {d : DFA σ} {s : σ} {r : Arrow σ}

theorem mem_orderedStates_iff (hs : ∀ s, d.start = some s → s ∈ d.states) :
    s ∈ d.orderedStates ↔ s ∈ d.states := by
  rw [orderedStates]
  cases h : d.start
  case none   => exact SortedSet.mem_toList
  case some q =>
    by_cases hq : s = q
    case pos => simp [hq, hs q h]
    case neg => simp [hq]

theorem nodup_orderedStates : d.orderedStates.Nodup := by
  rw [orderedStates]
  cases d.start
  case none   => exact d.states.nodup_toList
  case some q => exact List.nodup_cons.mpr ⟨by simp, d.states.nodup_toList.filter _⟩

-- The arrows from a state, in the alphabet's order.
def arrowsFrom (d : DFA σ) (s : σ) : List (Arrow σ) :=
  d.alphabet.filterMap fun a => ((d.row s).find? a).map (⟨s, a, ·⟩)

theorem orderedArrows_eq : d.orderedArrows = d.orderedStates.flatMap d.arrowsFrom :=
  rfl

theorem mem_arrowsFrom_iff : r ∈ d.arrowsFrom s ↔
    r.source = s ∧ r.symbol ∈ d.alphabet ∧ d.next s r.symbol = some r.target := by
  simp only [arrowsFrom, List.mem_filterMap, Option.map_eq_some_iff]
  constructor
  case mp  =>
    intro ⟨a, ha, t, ht, hr⟩
    exact hr ▸ ⟨rfl, ha, ht⟩
  case mpr => exact fun ⟨hs, ha, ht⟩ => ⟨r.symbol, ha, r.target, ht, hs ▸ rfl⟩

theorem nodup_arrowsFrom (hn : d.alphabet.Nodup) : (d.arrowsFrom s).Nodup := by
  refine hn.filterMap fun a b r ha hb => ?_
  have ⟨_, _, ha⟩ := Option.map_eq_some_iff.mp ha
  have ⟨_, _, hb⟩ := Option.map_eq_some_iff.mp hb
  exact congrArg Arrow.symbol (ha.trans hb.symm)

namespace Valid

variable (hv : d.Valid)
include hv

theorem mem_orderedArrows_iff : r ∈ d.orderedArrows ↔ d.next r.source r.symbol = some r.target := by
  simp only [orderedArrows_eq, List.mem_flatMap, mem_orderedStates_iff hv.start_mem,
    mem_arrowsFrom_iff]
  constructor
  case mp  =>
    intro ⟨s, _, hs, _, ht⟩
    exact hs ▸ ht
  case mpr => exact fun h => ⟨r.source, hv.source_mem h, rfl, hv.symbol_mem h, h⟩

theorem nodup_orderedArrows : d.orderedArrows.Nodup := by
  rw [orderedArrows_eq, List.nodup_flatMap]
  refine ⟨fun s _ => nodup_arrowsFrom hv.alphabet_nodup, ?_⟩
  refine nodup_orderedStates.imp fun hne r hs ht => ?_
  exact hne ((mem_arrowsFrom_iff.mp hs).left.symm.trans (mem_arrowsFrom_iff.mp ht).left)

end Valid
end RightLinear.DFA
