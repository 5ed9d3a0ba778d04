import RightLinear.Proofs.InPlace

namespace RightLinear.DFA

section

variable {σ : Type} [Key σ] {d : DFA σ}

-- The states that a search without a bound finds, if it ends.
def search (d : DFA σ) (next : σ → List σ) : Part (SortedSet σ) :=
  match d.start with
  | none => .some ∅
  | some s =>
    (StateTransition.eval (Search.Queue.step next) (.start [s])).map fun q => .ofList q.found

-- The search for the reachable states ends, in whatever order it takes the targets of a state.
theorem Valid.search_eq {next : σ → List σ} (hv : d.Valid) (hn : d.ListsTargets next) :
    d.search next = .some d.reachable := by
  cases hs : d.start
  case none   => simp only [search, reachable, hs]
  case some s =>
    have hm := Automaton.WellFormed.start_mem hv s hs
    have ends := Search.explore_mem_eval (hn.closed hv) (List.forall_mem_singleton.mpr hm)
      (Nat.le_refl _)
    simp only [search, hs, Part.eq_some_iff, Part.mem_map_iff]
    refine ⟨_, ends, ?_⟩
    ext t
    rw [SortedSet.mem_ofList, mem_reachable_iff hv, hs]
    exact hn.mem_explore_iff hv hm

-- A DFA that is another one restricted to the states that words lead to.
structure Trimmed (d e : DFA σ) : Prop where
  states    : ∀ s, s ∈ e.states ↔ ∃ w, d.run d.start w = some s
  alphabet  : e.alphabet = d.alphabet
  start     : e.start = d.start
  accepting : ∀ s, s ∈ e.accepting ↔ s ∈ d.accepting ∧ s ∈ e.states
  rows      : ∀ s, e.transitions.find? s = if s ∈ e.states then d.transitions.find? s else none
  arrows    : ∀ r, r ∈ e.arrows ↔ r ∈ d.arrows ∧ r.source ∈ e.states ∧ r.target ∈ e.states

namespace Valid

variable (hv : d.Valid)
include hv

theorem mem_arrows_trim_iff {r : Arrow σ} : r ∈ d.trim.arrows ↔
    r ∈ d.arrows ∧ r.source ∈ d.reachable ∧ r.target ∈ d.reachable := by
  rw [mem_arrows_iff, mem_arrows_iff, next_trim, Option.ite_none_right_eq_some]
  constructor
  case mp  => exact fun ⟨hs, h⟩ => ⟨h, hs, hv.next_mem_reachable hs h⟩
  case mpr => exact fun ⟨h, hs, _⟩ => ⟨hs, h⟩

theorem trimmed_trim : Trimmed d d.trim where
  states _    := mem_reachable_iff hv
  alphabet    := rfl
  start       := rfl
  accepting _ := SortedSet.mem_inter
  rows s      := by rw [DFA.trim, Table.find?_filter]; simp
  arrows _    := hv.mem_arrows_trim_iff

theorem reachable_trim : d.trim.reachable = d.reachable := by
  ext s
  rw [mem_reachable_iff hv.trim, mem_reachable_iff hv]
  exact exists_congr fun w => by rw [show d.trim.start = d.start from rfl, hv.run_trim]

-- Nothing is left to do exactly when all states are reachable and no row is stray.
theorem trim_eq_self_iff : d.trim = d ↔ d.NoStrayRow ∧ ∀ s ∈ d.states, s ∈ d.reachable := by
  constructor
  case mp =>
    intro h
    exact ⟨h ▸ noStrayRow_trim, fun s (hs : s ∈ d.states) => by rw [← h] at hs; exact hs⟩
  case mpr =>
    rintro ⟨hr, hs⟩
    have reachable : d.reachable = d.states := by
      ext s
      exact ⟨hv.reachable_sub, hs s⟩
    have accepting : d.accepting ∩ d.reachable = d.accepting := by
      ext s
      rw [SortedSet.mem_inter, and_iff_left_of_imp fun ha => hs s (hv.accepting_mem s ha)]
    have transitions : d.trim.transitions = d.transitions := by
      ext s : 1
      rw [hv.trimmed_trim.rows]
      split
      case isTrue     => rfl
      case isFalse hn =>
        rw [eq_comm, Option.eq_none_iff_forall_ne_some]
        exact fun row h => hn (hs s (hr s (Table.mem_keys_iff.mpr ⟨row, h⟩)))
    calc d.trim
      _ = { d with
            states := d.reachable
            accepting := d.accepting ∩ d.reachable
            transitions := d.trim.transitions } := rfl
      _ = d := by rw [accepting, reachable, transitions]

theorem trim_trim : d.trim.trim = d.trim :=
  hv.trim.trim_eq_self_iff.mpr ⟨noStrayRow_trim, fun _ hs => hv.reachable_trim.symm ▸ hs⟩

end Valid
end

variable {d : DFA String}

theorem Valid.run_inPlace_trim (hv : d.Valid) : InPlace.trim.run d = .ok () d.trim :=
  Edit.trim.run_change_of_ok hv rfl

theorem trim_exact (hv : d.Valid) :
    (∀ next, d.ListsTargets next → d.search next = .some d.reachable) ∧
    (∀ s, s ∈ d.reachable ↔ ∃ w, d.run d.start w = some s) ∧
    (d.start = none → d.reachable = ∅) ∧
    InPlace.trim.run d = .ok () d.trim ∧ Trimmed d d.trim ∧
    (∀ w, d.trim.accepts w = d.accepts w) ∧
    (d.isComplete = true → d.trim.isComplete = true) ∧
    InPlace.trim.run d.trim = .ok () d.trim := by
  refine ⟨fun _ => hv.search_eq, fun _ => mem_reachable_iff hv, fun hs => ?_, hv.run_inPlace_trim,
    hv.trimmed_trim, fun _ => hv.accepts_trim, hv.isComplete_trim, ?_⟩
  · rw [reachable, hs]
  · rw [hv.trim.run_inPlace_trim, hv.trim_trim]

-- Two states that no word leads to, one of which accepts and one of which leads back, and a row
-- without entries for a label that is no state.
def scattered : DFA String where
  states      := .ofList ["p", "q", "r", "u"]
  alphabet    := ["b", "a"]
  start       := some "p"
  accepting   := .ofList ["q", "u"]
  transitions := .ofList [("p", .ofList [("a", "q")]), ("q", .ofList [("b", "p"), ("a", "q")]),
    ("r", .ofList [("a", "p")]), ("gone", ∅)]

theorem trim_exact_scattered : scattered.Valid ∧
    scattered.ListsTargets (scattered.row · |>.values) ∧
    scattered.search (scattered.row · |>.values) = .some (.ofList ["p", "q"]) ∧
    InPlace.trim.run scattered = .ok () scattered.trim ∧
    scattered.trim.accepts ["a", "a", "b", "a"] = scattered.accepts ["a", "a", "b", "a"] := by
  have hv : scattered.Valid := by decide +kernel
  have hr : scattered.reachable = .ofList ["p", "q"] := by decide +kernel
  have ⟨hs, _, _, ht, _, ha, _⟩ := trim_exact hv
  exact ⟨hv, listsTargets_values, hr ▸ hs _ listsTargets_values, ht, ha _⟩

end RightLinear.DFA
