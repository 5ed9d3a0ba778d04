import RightLinear.DFA.Complete
import RightLinear.Proofs.DFA.Run
import RightLinear.Proofs.Label
import RightLinear.Proofs.Table

namespace RightLinear.DFA

variable {d : DFA String} {s t a : String} {w : List String}

theorem find?_totalRow {target : String → String} :
    (d.totalRow target).find? a = if a ∈ d.alphabet then some (target a) else none := by
  rw [totalRow]
  split
  case isTrue h  => exact Table.find?_ofList_map (f := id) (fun _ _ _ _ => id) h
  case isFalse h =>
    exact Table.find?_ofList_map_eq_none (f := id) fun b hb (he : b = a) => h (he ▸ hb)

theorem isSink_iff : d.isSink s = true ↔
    s ∉ d.accepting ∧ ∀ a ∈ d.alphabet, d.next s a = some s := by
  simp [isSink]

-- A label that a sink can have: a free one, or that of a state that is a sink already.
def Serves (d : DFA String) (s : String) : Prop :=
  s ∉ d.states ∨ d.isSink s = true

-- There are more candidates than states, so one of them serves, and the first such is the sink.
theorem sink_first :
    ∃ k, d.sink = sinkLabel k ∧ d.Serves (sinkLabel k) ∧ ∀ j < k, ¬d.Serves (sinkLabel j) := by
  let candidates := (List.range (d.states.size + 1)).map sinkLabel
  have hn : candidates.Nodup :=
    List.Nodup.map_on (fun _ _ _ _ he => sinkLabel_injective he) List.nodup_range
  have ⟨s, hs, hm⟩ := exists_not_mem_of_length_lt (m := d.states.toList) hn
    (by simp [candidates, SortedSet.size])
  rw [SortedSet.mem_toList] at hm
  rw [sink, List.find?_map]
  cases hf : (List.range (d.states.size + 1)).find?
    ((fun s => s ∉ d.states || d.isSink s) ∘ sinkLabel)
  case none   =>
    have ⟨k, hk, he⟩ := List.mem_map.mp hs
    simpa [he, hm] using List.find?_eq_none.mp hf k hk
  case some k =>
    have ⟨hk, _, hj⟩ := List.find?_range_eq_some.mp hf
    exact ⟨k, rfl, by simpa [Serves] using hk, fun j h => by simpa [Serves] using hj j h⟩

theorem sink_spec : (d.sink ∉ d.states ∨ d.isSink d.sink = true) ∧ ∃ k, d.sink = sinkLabel k :=
  have ⟨k, he, hs, _⟩ := d.sink_first
  ⟨he ▸ hs, k, he⟩

theorem next_sink (h : d.sink ∈ d.states) (ha : a ∈ d.alphabet) : d.next d.sink a = some d.sink :=
  (isSink_iff.mp <| d.sink_spec.left.resolve_left (not_not_intro h)).right a ha

theorem Valid.sink_not_mem_accepting (hv : d.Valid) : d.sink ∉ d.accepting := by
  cases d.sink_spec.left
  case inl h => exact fun hm => h (hv.accepting_mem _ hm)
  case inr h => exact (isSink_iff.mp h).left

theorem mem_states_complete : s ∈ d.complete.states ↔ s = d.sink ∨ s ∈ d.states :=
  SortedSet.mem_insert

theorem find?_transitions_complete (hs : s ∈ d.complete.states) :
    d.complete.transitions.find? s = some (d.totalRow fun a =>
      if s = d.sink then d.sink else (d.next s a).getD d.sink) :=
  Table.find?_ofList_map (f := id) (fun _ _ _ _ => id) hs

theorem find?_transitions_complete_eq_none (hs : s ∉ d.complete.states) :
    d.complete.transitions.find? s = none :=
  Table.find?_ofList_map_eq_none (f := id) fun q hq (he : q = s) => hs (he ▸ hq)

theorem mem_keys_complete : s ∈ d.complete.transitions.keys ↔ s ∈ d.complete.states := by
  rw [Table.mem_keys_iff]
  constructor
  case mpr => exact fun hs => ⟨_, find?_transitions_complete hs⟩
  case mp  =>
    rintro ⟨row, h⟩
    by_contra hs
    simp [find?_transitions_complete_eq_none hs] at h

theorem next_complete_of_mem (hs : s ∈ d.complete.states) : d.complete.next s a =
    if a ∈ d.alphabet then some (if s = d.sink then d.sink else (d.next s a).getD d.sink)
    else none := by
  rw [next, row, find?_transitions_complete hs, Option.getD_some, find?_totalRow]

theorem next_complete_of_not_mem (hs : s ∉ d.complete.states) : d.complete.next s a = none := by
  rw [next, row, find?_transitions_complete_eq_none hs, Option.getD_none, Table.find?_empty]

-- A transition that was there stays, also that of a state that serves as the sink.
theorem next_complete_eq (hs : s ∈ d.states) (ha : a ∈ d.alphabet) :
    d.complete.next s a = some ((d.next s a).getD d.sink) := by
  rw [next_complete_of_mem (mem_states_complete.mpr <| .inr hs), if_pos ha]
  split
  case isTrue h  => rw [h, next_sink (h ▸ hs) ha, Option.getD_some]
  case isFalse h => rfl

theorem next_complete_sink (ha : a ∈ d.alphabet) : d.complete.next d.sink a = some d.sink := by
  rw [next_complete_of_mem (mem_states_complete.mpr <| .inl rfl), if_pos ha, if_pos rfl]

theorem Valid.complete (hv : d.Valid) : d.complete.Valid := by
  refine .of_next hv.alphabet_nodup hv.epsilon_not_mem ?_ ?_ ?_
  · exact fun s hs => mem_states_complete.mpr <| .inr <| hv.start_mem s hs
  · exact fun s hs => mem_states_complete.mpr <| .inr <| hv.accepting_mem s hs
  · intro s a t h
    by_cases hs : s ∈ d.complete.states
    case neg => simp [next_complete_of_not_mem hs] at h
    case pos =>
      rw [next_complete_of_mem hs] at h
      have ⟨ha, ht⟩ := Option.ite_none_right_eq_some.mp h
      refine ⟨hs, ha, mem_states_complete.mpr ?_⟩
      rw [← Option.some.inj ht]
      split
      case isTrue  => exact .inl rfl
      case isFalse =>
        cases hn : d.next s a
        case none   => exact .inl rfl
        case some u => exact .inr (hv.target_mem hn)

theorem isComplete_complete : d.complete.isComplete = true :=
  isComplete_iff.mpr fun _ hs _ ha => ⟨_, (next_complete_of_mem hs).trans (if_pos ha)⟩

theorem run_complete_sink (hw : ∀ a ∈ w, a ∈ d.alphabet) :
    d.complete.run (some d.sink) w = some d.sink := by
  induction w
  case nil         => exact run_nil
  case cons a w hi =>
    have ⟨ha, hw⟩ := List.forall_mem_cons.mp hw
    rw [run_cons, Option.bind_some, next_complete_sink ha, hi hw]

-- Where the run of the DFA ends early, that of the complete one is in the sink.
theorem Valid.run_complete (hv : d.Valid) (hs : s ∈ d.states) (hw : ∀ a ∈ w, a ∈ d.alphabet) :
    d.complete.run (some s) w = some ((d.run (some s) w).getD d.sink) := by
  induction w generalizing s
  case nil => simp
  case cons a w hi =>
    have ⟨ha, hw⟩ := List.forall_mem_cons.mp hw
    rw [run_cons, run_cons, Option.bind_some, Option.bind_some, next_complete_eq hs ha]
    cases hn : d.next s a
    case none   => simpa using run_complete_sink hw
    case some t => exact hi (hv.target_mem hn) hw

-- A word with a symbol of its own is rejected.
theorem Valid.accepts_eq_false (hv : d.Valid) (hw : ¬∀ a ∈ w, a ∈ d.alphabet) :
    d.accepts w = false := by
  rw [Bool.eq_false_iff, ne_eq, accepts_iff]
  exact fun ⟨_, h, _⟩ => hw (hv.symbol_mem_of_run h)

theorem Valid.accepts_complete (hv : d.Valid) : d.complete.accepts w = d.accepts w := by
  by_cases hw : ∀ a ∈ w, a ∈ d.alphabet
  case neg => rw [hv.accepts_eq_false hw, hv.complete.accepts_eq_false hw]
  case pos =>
    rw [Bool.eq_iff_iff, accepts_iff, accepts_iff, show d.complete.start = d.start from rfl]
    cases hs : d.start
    case none   => simp
    case some s =>
      rw [hv.run_complete (hv.start_mem s hs) hw]
      cases d.run (some s) w
      case none   => simpa using show d.sink ∉ d.complete.accepting from hv.sink_not_mem_accepting
      case some t => rfl

-- The sink's label takes no code that is left.
theorem leavesCode_complete {d₁ d₂ : DFA String}
    (h : LeavesCode (d₁.states.toList ++ d₂.states.toList)) :
    LeavesCode (d₁.complete.states.toList ++ d₂.complete.states.toList) := by
  have ⟨c, hl, hu, hc⟩ := h
  have ⟨h₁, h₂⟩ := List.forall_mem_append.mp hc
  have completed {d : DFA String} (hd : ∀ s ∈ d.states.toList, c ∉ s.toList) :
      ∀ s ∈ d.complete.states.toList, c ∉ s.toList := by
    intro s hs hm
    cases mem_states_complete.mp hs
    case inl he =>
      have ⟨k, hk⟩ := d.sink_spec.right
      exact absurd (toNat_lt_of_mem_sinkLabel (hk ▸ he ▸ hm)) (Nat.not_lt.mpr hl)
    case inr hs => exact hd s hs hm
  exact ⟨c, hl, hu, List.forall_mem_append.mpr ⟨completed h₁, completed h₂⟩⟩

theorem Valid.complement (hv : d.Valid) : d.complement.Valid :=
  { hv.complete with accepting_mem := fun _ hs => (SortedSet.mem_diff.mp hs).left }

theorem isComplete_complement : d.complement.isComplete = true :=
  d.isComplete_complete

theorem Valid.accepts_complement (hv : d.Valid) (hs : d.start = some s)
    (hw : ∀ a ∈ w, a ∈ d.alphabet) : d.complement.accepts w = !d.accepts w := by
  have ⟨t, ht, hr⟩ := run_of_complete hv.complete isComplete_complete
    (mem_states_complete.mpr <| .inr <| hv.start_mem s hs) hw
  have hc : d.complement.run d.complement.start w = d.complete.run d.complete.start w :=
    run_congr fun _ _ => rfl
  rw [← hv.accepts_complete, accepts, accepts, hc, show d.complete.start = some s from hs, hr]
  simp [DFA.complement, ht]

-- The complement is taken over the alphabet: words with other symbols stay rejected.
theorem complement_exact (hv : d.Valid) (hs : d.start = some s) :
    make d.complete = .ok d.complete ∧ make d.complement = .ok d.complement ∧
      d.complement.isComplete = true ∧ d.complement.alphabet = d.alphabet ∧
      (∀ w, (∀ a ∈ w, a ∈ d.alphabet) → d.complement.accepts w = !d.accepts w) ∧
      ∀ w, (∃ a ∈ w, a ∉ d.alphabet) → d.complement.accepts w = false ∧ d.accepts w = false := by
  refine ⟨hv.complete.make_eq, hv.complement.make_eq, isComplete_complement, rfl,
    fun w hw => hv.accepts_complement hs hw, fun w hw => ?_⟩
  have hf : ¬∀ a ∈ w, a ∈ d.alphabet := by simpa using hw
  exact ⟨hv.complement.accepts_eq_false hf, hv.accepts_eq_false hf⟩

-- The first sink label is that of an accepting state, the second that of a state that is left, and
-- the third that of a sink.
def dead : DFA String where
  states      := .ofList ["DEAD", "DEAD1", "DEAD2"]
  alphabet    := ["a", "b"]
  start       := some "DEAD"
  accepting   := .singleton "DEAD"
  transitions := .ofList [("DEAD", .ofList [("a", "DEAD1")]), ("DEAD1", .ofList [("b", "DEAD")]),
    ("DEAD2", .ofList [("a", "DEAD2"), ("b", "DEAD2")])]

theorem complement_exact_dead : dead.Valid ∧ dead.start = some "DEAD" ∧ dead.sink = "DEAD2" ∧
    dead.complement.accepts ["a", "b"] = !dead.accepts ["a", "b"] ∧
    dead.complement.accepts ["a", "a", "b"] = !dead.accepts ["a", "a", "b"] ∧
    dead.complement.accepts ["a", "c"] = false := by
  have hv : dead.Valid := by decide +kernel
  have ⟨_, _, _, _, hw, hf⟩ := complement_exact hv (s := "DEAD") rfl
  exact ⟨hv, rfl, by decide +kernel, hw _ (by decide +kernel), hw _ (by decide +kernel),
    (hf _ ⟨"c", by decide +kernel⟩).left⟩

-- A complete DFA that differs from another one by a sink and the transitions to it.
structure Totalised (d e : DFA String) (sink : String) : Prop where
  complete  : e.isComplete = true
  states    : ∀ s, s ∈ e.states ↔ s ∈ d.states ∨ s = sink
  alphabet  : e.alphabet = d.alphabet
  start     : e.start = d.start
  accepting : e.accepting = d.accepting
  kept      : ∀ s a t, d.next s a = some t → e.next s a = some t
  missing   : ∀ s ∈ d.states, ∀ a ∈ d.alphabet, d.next s a = none → e.next s a = some sink
  rejects   : sink ∉ e.accepting
  loops     : ∀ a ∈ e.alphabet, e.next sink a = some sink

-- Nothing is added but a sink, the first label that is free or serves already, and the transitions
-- to it.
theorem Valid.totalised_complete (hv : d.Valid) : Totalised d d.complete d.sink where
  complete            := isComplete_complete
  states _            := mem_states_complete.trans or_comm
  alphabet            := rfl
  start               := rfl
  accepting           := rfl
  missing _ hs _ ha h := by rw [next_complete_eq hs ha, h, Option.getD_none]
  rejects             := hv.sink_not_mem_accepting
  loops _ ha          := next_complete_sink ha
  kept _ _ _ h        := by
    rw [next_complete_eq (hv.source_mem h) (hv.symbol_mem h), h, Option.getD_some]

theorem complete_conservative (hv : d.Valid) :
    (∃ k, d.sink = sinkLabel k ∧ d.Serves (sinkLabel k) ∧ ∀ j < k, ¬d.Serves (sinkLabel j)) ∧
      make d.complete = .ok d.complete ∧ Totalised d d.complete d.sink ∧
      ∀ w, d.complete.accepts w = d.accepts w :=
  ⟨d.sink_first, hv.complete.make_eq, hv.totalised_complete, fun _ => hv.accepts_complete⟩

-- The third sink label is that of a sink, and its transitions stay.
theorem complete_conservative_dead : dead.Valid ∧ dead.sink = "DEAD2" ∧
    Totalised dead dead.complete "DEAD2" ∧
    dead.complete.accepts ["a", "a", "b"] = dead.accepts ["a", "a", "b"] := by
  have hv : dead.Valid := by decide +kernel
  have hs : dead.sink = "DEAD2" := by decide +kernel
  have ⟨_, _, ht, hw⟩ := complete_conservative hv
  exact ⟨hv, hs, hs ▸ ht, hw _⟩

theorem sink_eq_of_first {k : Nat} (hs : d.Serves (sinkLabel k))
    (hf : ∀ j < k, ¬d.Serves (sinkLabel j)) : d.sink = sinkLabel k := by
  have ⟨i, hi, his, hif⟩ := d.sink_first
  rcases Nat.lt_trichotomy i k with h | rfl | h
  · exact absurd his (hf i h)
  · exact hi
  · exact absurd hs (hif k h)

-- A label that does not serve is that of a state which accepts, or from which a symbol does not lead
-- back. Completion changes neither, since the transitions that the state lacked go to another one.
theorem not_serves_complete (h : ¬d.Serves s) : ¬d.complete.Serves s := by
  have ⟨hm, hs⟩ : s ∈ d.states ∧ ¬d.isSink s = true := by simpa [Serves] using h
  have hne : d.sink ≠ s := fun he => h (he ▸ d.sink_spec.left)
  rintro (hn | hc)
  · exact hn (mem_states_complete.mpr <| .inr hm)
  · have ⟨ha, hl⟩ := isSink_iff.mp hc
    refine hs (isSink_iff.mpr ⟨ha, fun a hm' => ?_⟩)
    have hl : some ((d.next s a).getD d.sink) = some s := next_complete_eq hm hm' ▸ hl a hm'
    cases hn : d.next s a
    case none   => exact absurd (by simpa [hn] using hl) hne
    case some t => simpa [hn] using hl

theorem Valid.sink_complete (hv : d.Valid) : d.complete.sink = d.sink := by
  have ⟨k, hk, _, hf⟩ := d.sink_first
  have hs : d.complete.Serves d.sink :=
    .inr <| isSink_iff.mpr ⟨hv.sink_not_mem_accepting, fun _ ha => next_complete_sink ha⟩
  rw [sink_eq_of_first (hk ▸ hs) fun j hj => not_serves_complete (hf j hj), hk]

-- There is nothing to complete when the DFA is complete, has a row for each state and no other row,
-- and has its sink already.
theorem Valid.complete_eq_self (hv : d.Valid) (hc : d.isComplete = true)
    (hr : ∀ s, s ∈ d.transitions.keys ↔ s ∈ d.states) (hs : d.sink ∈ d.states) :
    d.complete = d := by
  have states : d.complete.states = d.states := by
    ext s
    rw [mem_states_complete, or_iff_right_of_imp fun he => he ▸ hs]
  have transitions : d.complete.transitions = d.transitions := by
    ext s : 1
    by_cases hm : s ∈ d.states
    case neg =>
      rw [find?_transitions_complete_eq_none (states ▸ hm), eq_comm,
        Option.eq_none_iff_forall_ne_some]
      exact fun row h => hm ((hr s).mp (Table.mem_keys_iff.mpr ⟨row, h⟩))
    case pos =>
      obtain ⟨row, h⟩ := Table.mem_keys_iff.mp ((hr s).mpr hm)
      have hn (a : String) : d.next s a = row.find? a := by rw [next, DFA.row, h, Option.getD_some]
      rw [find?_transitions_complete (states ▸ hm), h]
      congr 1
      ext a : 1
      rw [find?_totalRow, ← hn]
      split
      case isFalse ha =>
        rw [eq_comm, Option.eq_none_iff_forall_ne_some]
        exact fun t ht => ha (hv.symbol_mem ht)
      case isTrue ha =>
        obtain ⟨t, ht⟩ := isComplete_iff.mp hc s hm a ha
        split
        case isTrue he  => rw [he, next_sink hs ha]
        case isFalse    => rw [ht, Option.getD_some]
  calc d.complete
    _ = { d with states := d.complete.states, transitions := d.complete.transitions } := rfl
    _ = d := by rw [states, transitions]

-- The second completion finds the sink of the first one again and leaves every row as it is.
theorem complete_idempotent (hv : d.Valid) : make d.complete = .ok d.complete ∧
    d.complete.sink = d.sink ∧ d.complete.complete = d.complete := by
  have hs : d.complete.sink ∈ d.complete.states :=
    mem_states_complete.mpr <| .inl hv.sink_complete
  exact ⟨hv.complete.make_eq, hv.sink_complete,
    hv.complete.complete_eq_self isComplete_complete (fun _ => mem_keys_complete) hs⟩

theorem complete_idempotent_dead : dead.Valid ∧ dead.complete ≠ dead ∧
    dead.complete.complete = dead.complete := by
  have hv : dead.Valid := by decide +kernel
  have ⟨_, _, h⟩ := complete_idempotent hv
  exact ⟨hv, by decide +kernel, h⟩

end RightLinear.DFA
