import RightLinear.DFA.Basic
import RightLinear.Proofs.Automaton
import RightLinear.Proofs.Search

namespace RightLinear.DFA

variable {σ τ : Type} [Key σ] [Key τ] {d : DFA σ} {s t : σ} {a : String} {w : List String}

theorem next_eq_some_iff : d.next s a = some t ↔
    ∃ row, d.transitions.find? s = some row ∧ row.find? a = some t := by
  rw [next, row]
  cases d.transitions.find? s <;> simp

theorem mem_arrows_iff {r : Arrow σ} : r ∈ d.arrows ↔ d.next r.source r.symbol = some r.target := by
  simp only [arrows, List.mem_flatMap, List.mem_map, next_eq_some_iff, Table.find?_eq_some_iff]
  constructor
  case mp =>
    rintro ⟨⟨s, row⟩, hr, ⟨a, t⟩, ha, rfl⟩
    exact ⟨row, hr, ha⟩
  case mpr =>
    rintro ⟨row, hr, ha⟩
    exact ⟨⟨_, row⟩, hr, ⟨_, _⟩, ha, rfl⟩

theorem mem_values_row_iff : t ∈ (d.row s).values ↔ ∃ a, d.next s a = some t :=
  Table.mem_values_iff

namespace Valid

theorem source_mem (hv : d.Valid) (h : d.next s a = some t) : s ∈ d.states :=
  Automaton.WellFormed.source_mem hv ⟨s, a, t⟩ (mem_arrows_iff.mpr h)

theorem target_mem (hv : d.Valid) (h : d.next s a = some t) : t ∈ d.states :=
  Automaton.WellFormed.target_mem hv ⟨s, a, t⟩ (mem_arrows_iff.mpr h)

theorem symbol_mem (hv : d.Valid) (h : d.next s a = some t) : a ∈ d.alphabet := by
  have h := Automaton.WellFormed.symbol_mem hv ⟨s, a, t⟩ (mem_arrows_iff.mpr h)
  simpa [Automaton.allows] using h

-- The transitions that a DFA must have to be valid, besides its states and its alphabet.
theorem of_next (hn : d.alphabet.Nodup) (he : epsilon ∉ d.alphabet)
    (hs : ∀ s, d.start = some s → s ∈ d.states) (ha : ∀ s ∈ d.accepting, s ∈ d.states)
    (ht : ∀ s a t, d.next s a = some t → s ∈ d.states ∧ a ∈ d.alphabet ∧ t ∈ d.states) :
    d.Valid where
  alphabet_nodup  := hn
  epsilon_not_mem := he
  start_mem       := hs
  accepting_mem   := ha
  source_mem _ hr := (ht _ _ _ (mem_arrows_iff.mp hr)).left
  target_mem _ hr := (ht _ _ _ (mem_arrows_iff.mp hr)).right.right
  symbol_mem _ hr := .inl (ht _ _ _ (mem_arrows_iff.mp hr)).right.left

end Valid

-- Every row is that of a state; a valid DFA may have rows without entries for other labels.
def NoStrayRow (d : DFA σ) : Prop :=
  ∀ s ∈ d.transitions.keys, s ∈ d.states

instance : Decidable d.NoStrayRow :=
  inferInstanceAs (Decidable (∀ s ∈ d.transitions.keys, s ∈ d.states))

instance {d : DFA String} : Decidable d.Valid :=
  inferInstanceAs (Decidable (d.toAutomaton.WellFormed .dfa d.arrows))

section

variable {parts d : DFA String}

theorem make_eq_error_iff :
    (∃ f, make parts = .error (.invalid f)) ↔ parts.toAutomaton.Faulty .dfa parts.arrows :=
  Automaton.checked_eq_error_iff.trans Automaton.faulty_eraseDups_iff

theorem make_eq_ok_iff : make parts = .ok d ↔ ¬parts.toAutomaton.Faulty .dfa parts.arrows ∧
    { parts with alphabet := parts.alphabet.eraseDups } = d :=
  Automaton.checked_eq_ok_iff.trans (and_congr_left' (not_congr Automaton.faulty_eraseDups_iff))

theorem valid_of_make (h : make parts = .ok d) : d.Valid := by
  have ⟨hf, he⟩ := make_eq_ok_iff.mp h
  exact he ▸ Automaton.wellFormed_eraseDups_iff.mpr hf

theorem Valid.make_eq (hv : d.Valid) : make d = .ok d := by
  have ⟨hn, hf⟩ := Automaton.wellFormed_iff.mp hv
  simp only [make, Automaton.eraseDups_of_nodup hn]
  rw [show d.toAutomaton.fault? .dfa d.arrows = none from hf]

end

@[simp]
theorem run_none : d.run none w = none := by
  cases w <;> rfl

@[simp]
theorem run_nil {q : Option σ} : d.run q [] = q := by
  cases q <;> rfl

theorem run_cons {q : Option σ} : d.run q (a :: w) = d.run (q.bind (d.next · a)) w := by
  cases q
  case none   => simp
  case some s => rfl

theorem run_append {q : Option σ} {u v : List String} :
    d.run q (u ++ v) = d.run (d.run q u) v := by
  induction u generalizing q
  case nil         => simp
  case cons a u hi => simp [run_cons, hi]

theorem run_append_singleton {q : Option σ} :
    d.run q (w ++ [a]) = (d.run q w).bind (d.next · a) := by
  simp [run_append, run_cons]

theorem run_congr {e : DFA σ} {q : Option σ} (h : ∀ s a, e.next s a = d.next s a) :
    e.run q w = d.run q w := by
  induction w generalizing q
  case nil         => simp
  case cons a w hi => simp only [run_cons, h, hi]

theorem accepts_iff : d.accepts w = true ↔ ∃ s, d.run d.start w = some s ∧ s ∈ d.accepting := by
  rw [accepts]
  cases d.run d.start w <;> simp

theorem Valid.run_mem (hv : d.Valid) (hs : s ∈ d.states) (h : d.run (some s) w = some t) :
    t ∈ d.states := by
  induction w generalizing s
  case nil => simp_all
  case cons a w hi =>
    cases hn : d.next s a
    case none   => simp [run_cons, hn] at h
    case some u => exact hi (hv.target_mem hn) (by simpa [run_cons, hn] using h)

theorem Valid.symbol_mem_of_run {q : Option σ} (hv : d.Valid) (h : d.run q w = some t) :
    ∀ a ∈ w, a ∈ d.alphabet := by
  induction w generalizing q
  case nil => simp
  case cons a w hi =>
    rw [run_cons] at h
    cases hn : q.bind (d.next · a)
    case none   => simp [hn] at h
    case some u =>
      have ⟨s, _, hs⟩ := Option.bind_eq_some_iff.mp hn
      simpa using ⟨hv.symbol_mem hs, hi h⟩

-- A map that carries the transitions of one DFA over to another carries over its runs. The map need
-- only do so on states with a property that the transitions keep.
theorem run_map {e : DFA τ} {f : σ → τ} {p : σ → Prop}
    (hp : ∀ s a t, p s → d.next s a = some t → p t)
    (hf : ∀ s a, p s → e.next (f s) a = (d.next s a).map f) (hs : p s) :
    e.run (some (f s)) w = (d.run (some s) w).map f := by
  induction w generalizing s
  case nil => simp
  case cons a w hi =>
    simp only [run_cons, Option.bind_some, hf s a hs]
    cases hn : d.next s a
    case none   => simp
    case some t => exact hi (hp s a t hs hn)

theorem isComplete_iff :
    d.isComplete = true ↔ ∀ s ∈ d.states, ∀ a ∈ d.alphabet, ∃ t, d.next s a = some t := by
  simp only [isComplete, missing, List.isEmpty_iff, List.flatMap_eq_nil_iff, List.map_eq_nil_iff,
    List.filter_eq_nil_iff, Option.isNone_iff_eq_none, SortedSet.mem_toList, ← ne_eq,
    Option.ne_none_iff_exists']
  rfl

theorem run_of_complete (hv : d.Valid) (hc : d.isComplete = true) (hs : s ∈ d.states)
    (hw : ∀ a ∈ w, a ∈ d.alphabet) : ∃ t ∈ d.states, d.run (some s) w = some t := by
  induction w generalizing s
  case nil => exact ⟨s, hs, by simp⟩
  case cons a w hi =>
    have ⟨ha, hw⟩ := List.forall_mem_cons.mp hw
    have ⟨t, ht⟩ := isComplete_iff.mp hc s hs a ha
    have ⟨u, hu, h⟩ := hi (hv.target_mem ht) hw
    exact ⟨u, hu, by simpa [run_cons, ht] using h⟩

-- The targets of each state, in any order and as often as one likes.
def ListsTargets (d : DFA σ) (next : σ → List σ) : Prop :=
  ∀ s t, t ∈ next s ↔ ∃ a, d.next s a = some t

theorem listsTargets_values : d.ListsTargets fun s => (d.row s).values :=
  fun _ _ => mem_values_row_iff

namespace ListsTargets

variable {next : σ → List σ} (hn : d.ListsTargets next)
include hn

theorem leads_iff : Search.Leads next s t ↔ ∃ w, d.run (some s) w = some t := by
  constructor
  case mp =>
    intro h
    induction h
    case refl => exact ⟨[], by simp⟩
    case tail hs hi =>
      have ⟨w, hw⟩ := hi
      have ⟨a, ha⟩ := (hn _ _).mp hs
      exact ⟨w ++ [a], by simp [run_append_singleton, hw, ha]⟩
  case mpr =>
    rintro ⟨w, h⟩
    induction w generalizing s
    case nil => simp_all [Search.Leads, Relation.ReflTransGen.refl]
    case cons a w hi =>
      cases hu : d.next s a
      case none   => simp [run_cons, hu] at h
      case some u => exact .head ((hn _ _).mpr ⟨a, hu⟩) (hi (by simpa [run_cons, hu] using h))

theorem closed (hv : d.Valid) : ∀ s ∈ d.states.toList, ∀ t ∈ next s, t ∈ d.states.toList :=
  fun s _ t ht => have ⟨_, h⟩ := (hn s t).mp ht; hv.target_mem h

theorem mem_explore_iff (hv : d.Valid) (hs : s ∈ d.states) :
    t ∈ Search.explore next d.states.size [s] ↔ ∃ w, d.run (some s) w = some t := by
  have bound : d.states.toList.length ≤ d.states.size := Nat.le_refl _
  rw [Search.mem_explore_iff (hn.closed hv) (List.forall_mem_singleton.mpr hs) bound]
  simp [hn.leads_iff]

end ListsTargets

theorem mem_reachable_iff (hv : d.Valid) : t ∈ d.reachable ↔ ∃ w, d.run d.start w = some t := by
  rw [reachable]
  cases hs : d.start
  case none   => simp
  case some s =>
    have hm := Automaton.WellFormed.start_mem hv s hs
    rw [SortedSet.mem_ofList, listsTargets_values.mem_explore_iff hv hm]

end RightLinear.DFA
