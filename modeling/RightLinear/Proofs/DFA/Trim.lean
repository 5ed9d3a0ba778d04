import RightLinear.DFA.Trim
import RightLinear.Proofs.DFA.Run

namespace RightLinear.DFA

variable {σ : Type} [Key σ] {d : DFA σ} {s t : σ} {a : String} {w : List String}

theorem next_trim : d.trim.next s a = if s ∈ d.reachable then d.next s a else none := by
  rw [next, row, trim, Table.find?_filter]
  by_cases hs : s ∈ d.reachable <;> simp [hs, next, row]

-- Rows of states that are dropped are dropped as well.
theorem noStrayRow_trim : d.trim.NoStrayRow := by
  intro s h
  have ⟨row, hr⟩ := Table.mem_keys_iff.mp h
  rw [trim, Table.find?_filter] at hr
  exact of_decide_eq_true (Option.ite_none_right_eq_some.mp hr).left

namespace Valid

variable (hv : d.Valid)
include hv

theorem start_mem_reachable (hs : d.start = some s) : s ∈ d.reachable :=
  (mem_reachable_iff hv).mpr ⟨[], by rw [hs, run_nil]⟩

theorem next_mem_reachable (hs : s ∈ d.reachable) (h : d.next s a = some t) : t ∈ d.reachable := by
  have ⟨w, hw⟩ := (mem_reachable_iff hv).mp hs
  exact (mem_reachable_iff hv).mpr ⟨w ++ [a], by rw [run_append_singleton, hw]; exact h⟩

theorem reachable_sub (hs : s ∈ d.reachable) : s ∈ d.states := by
  have ⟨w, hw⟩ := (mem_reachable_iff hv).mp hs
  cases hd : d.start
  case none   => simp [hd] at hw
  case some q => exact hv.run_mem (hv.start_mem q hd) (hd ▸ hw)

theorem trim : d.trim.Valid := by
  refine .of_next hv.alphabet_nodup hv.epsilon_not_mem ?_ ?_ ?_
  · exact fun s hs => hv.start_mem_reachable hs
  · exact fun s hs => (SortedSet.mem_inter.mp hs).right
  · intro s a t h
    rw [next_trim] at h
    have ⟨hs, h⟩ := Option.ite_none_right_eq_some.mp h
    exact ⟨hs, hv.symbol_mem h, hv.next_mem_reachable hs h⟩

-- The reachable part makes the runs from the start state that the DFA makes.
theorem run_trim : d.trim.run d.start w = d.run d.start w := by
  cases hs : d.start
  case none   => rw [run_none, run_none]
  case some s =>
    have hr := run_map (e := d.trim) (f := id) (p := (· ∈ d.reachable)) (w := w)
      (fun _ _ _ hp h => hv.next_mem_reachable hp h)
      (fun _ _ hp => by rw [id, next_trim, if_pos hp, Option.map_id, id])
      (hv.start_mem_reachable hs)
    rwa [Option.map_id, id, id] at hr

theorem exists_run_trim (hs : s ∈ d.trim.states) : ∃ w, d.trim.run d.trim.start w = some s := by
  have ⟨w, hw⟩ := (mem_reachable_iff hv).mp hs
  exact ⟨w, hv.run_trim.trans hw⟩

theorem accepts_trim : d.trim.accepts w = d.accepts w := by
  have hr : d.trim.run d.trim.start w = d.run d.start w := hv.run_trim
  rw [accepts, accepts, hr]
  cases h : d.run d.start w
  case none   => rfl
  case some t =>
    have ht : t ∈ d.reachable := (mem_reachable_iff hv).mpr ⟨w, h⟩
    simp [DFA.trim, ht]

theorem isComplete_trim (hc : d.isComplete = true) : d.trim.isComplete = true := by
  refine isComplete_iff.mpr fun s (hs : s ∈ d.reachable) a ha => ?_
  have ⟨t, ht⟩ := isComplete_iff.mp hc s (hv.reachable_sub hs) a ha
  exact ⟨t, by rwa [next_trim, if_pos hs]⟩

end Valid
end RightLinear.DFA
