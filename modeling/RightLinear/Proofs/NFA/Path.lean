import RightLinear.NFA.Basic
import RightLinear.Proofs.Automaton
import RightLinear.Proofs.Search

namespace RightLinear.NFA

variable {n : NFA} {r s t u : String} {a : String} {w : List String} {ls : Labels}

theorem mem_targets_iff : t ∈ n.targets s a ↔
    ∃ row ts, n.transitions.find? s = some row ∧ row.find? a = some ts ∧ t ∈ ts := by
  rw [targets]
  cases n.transitions.find? s
  case none     => simp
  case some row => cases h : row.find? a <;> simp [h]

theorem mem_arrows_iff {r : Arrow String} :
    r ∈ n.arrows ↔ r.target ∈ n.targets r.source r.symbol := by
  simp only [arrows, List.mem_flatMap, List.mem_map, mem_targets_iff, Table.find?_eq_some_iff]
  constructor
  case mp =>
    rintro ⟨⟨s, row⟩, hr, ⟨a, ts⟩, ha, t, ht, rfl⟩
    exact ⟨row, ts, hr, ha, ht⟩
  case mpr =>
    rintro ⟨row, ts, hr, ha, ht⟩
    exact ⟨⟨_, row⟩, hr, ⟨_, ts⟩, ha, _, ht, rfl⟩

instance : Decidable n.Valid :=
  inferInstanceAs (Decidable (n.toAutomaton.WellFormed .nfa n.arrows))

namespace Valid

theorem source_mem (hv : n.Valid) (h : t ∈ n.targets s a) : s ∈ n.states :=
  Automaton.WellFormed.source_mem hv ⟨s, a, t⟩ (mem_arrows_iff.mpr h)

theorem target_mem (hv : n.Valid) (h : t ∈ n.targets s a) : t ∈ n.states :=
  Automaton.WellFormed.target_mem hv ⟨s, a, t⟩ (mem_arrows_iff.mpr h)

end Valid

inductive Path (n : NFA) : String → List String → String → Prop
  | nil (s : String) : Path n s [] s
  | skip {s t u : String} {w : List String} (h : t ∈ n.targets s epsilon) (p : Path n t w u) :
    Path n s w u
  | read {s t u a : String} {w : List String} (h : t ∈ n.targets s a) (p : Path n t w u) :
    Path n s (a :: w) u

-- What a state leads to by ε-moves alone.
def Silent (n : NFA) : String → String → Prop :=
  Search.Leads fun s => (n.targets s epsilon).toList

theorem Silent.path (h : n.Silent s t) (p : n.Path t w u) : n.Path s w u := by
  induction h
  case refl         => exact p
  case tail hs hi => exact hi (.skip hs p)

theorem path_nil_iff : n.Path s [] t ↔ n.Silent s t := by
  constructor
  case mpr => exact fun h => h.path (.nil t)
  case mp =>
    generalize hw : ([] : List String) = w
    intro p
    induction p
    case nil         => exact .refl
    case skip h _ hi => exact .head h (hi hw)
    case read        => cases hw

theorem path_cons_iff :
    n.Path s (a :: w) u ↔ ∃ r, n.Silent s r ∧ ∃ t ∈ n.targets r a, n.Path t w u := by
  constructor
  case mpr =>
    rintro ⟨r, hs, t, ht, p⟩
    exact hs.path (.read ht p)
  case mp =>
    generalize hw : a :: w = v
    intro p
    induction p
    case nil => cases hw
    case skip h _ hi =>
      have ⟨r, hs, ht⟩ := hi hw
      exact ⟨r, .head h hs, ht⟩
    case read h p _ =>
      cases hw
      exact ⟨_, .refl, _, h, p⟩

theorem Path.append {v : List String} (p : n.Path s v t) (q : n.Path t w u) :
    n.Path s (v ++ w) u := by
  induction p
  case nil         => exact q
  case skip h _ hi => exact .skip h (hi q)
  case read h _ hi => exact .read h (hi q)

theorem path_append_iff {v : List String} :
    n.Path s (v ++ w) u ↔ ∃ t, n.Path s v t ∧ n.Path t w u := by
  constructor
  case mpr => exact fun ⟨_, p, q⟩ => p.append q
  case mp =>
    intro p
    induction v generalizing s
    case nil => exact ⟨s, .nil s, p⟩
    case cons a v hi =>
      have ⟨r, hs, x, hx, p⟩ := path_cons_iff.mp p
      have ⟨t, p, q⟩ := hi p
      exact ⟨t, path_cons_iff.mpr ⟨r, hs, x, hx, p⟩, q⟩

theorem Valid.path_mem (hv : n.Valid) (p : n.Path s w t) (hs : s ∈ n.states) : t ∈ n.states := by
  induction p
  case nil         => exact hs
  case skip h _ hi => exact hi (hv.target_mem h)
  case read h _ hi => exact hi (hv.target_mem h)

-- Every label that ε-moves lead to, and those of a set.
def silentTargets (n : NFA) : List String :=
  n.transitions.values.flatMap fun row => ((row.find? epsilon).getD ∅).toList

theorem length_silentTargets : n.silentTargets.length = n.closureBound := by
  rw [silentTargets, List.length_flatMap]
  rfl

theorem mem_silentTargets (h : t ∈ n.targets s epsilon) : t ∈ n.silentTargets := by
  have ⟨row, ts, hr, ha, ht⟩ := mem_targets_iff.mp h
  exact List.mem_flatMap.mpr ⟨row, Table.mem_values_iff.mpr ⟨s, hr⟩, by simpa [ha]⟩

theorem mem_closure_iff : t ∈ n.closure ls ↔ ∃ s ∈ ls, n.Silent s t := by
  have closed : ∀ s ∈ ls.toList ++ n.silentTargets, ∀ t ∈ (n.targets s epsilon).toList,
      t ∈ ls.toList ++ n.silentTargets :=
    fun s _ t ht => List.mem_append_right _ (mem_silentTargets ht)
  have seeds : ∀ s ∈ ls.toList, s ∈ ls.toList ++ n.silentTargets :=
    fun s hs => List.mem_append_left _ hs
  have bound : (ls.toList ++ n.silentTargets).length ≤ ls.size + n.closureBound := by
    simp [length_silentTargets, SortedSet.size]
  rw [closure, SortedSet.mem_ofList, Search.mem_explore_iff closed seeds bound]
  rfl

theorem mem_move_iff : t ∈ n.move ls a ↔ ∃ s ∈ ls, ∃ r ∈ n.targets s a, n.Silent r t := by
  rw [move, mem_closure_iff]
  simp only [SortedSet.mem_unionAll, List.mem_map, SortedSet.mem_toList]
  constructor
  case mp =>
    rintro ⟨r, ⟨_, ⟨s, hs, rfl⟩, hr⟩, ht⟩
    exact ⟨s, hs, r, hr, ht⟩
  case mpr =>
    rintro ⟨s, hs, r, hr, ht⟩
    exact ⟨r, ⟨_, ⟨s, hs, rfl⟩, hr⟩, ht⟩

-- Sets that are followed through a word begin closed under ε-moves, and `move` closes them again.
theorem mem_reach_iff : t ∈ n.reach (n.closure ls) w ↔ ∃ s ∈ ls, n.Path s w t := by
  induction w generalizing ls
  case nil =>
    simp only [reach, List.foldl_nil, mem_closure_iff, path_nil_iff]
  case cons a w hi =>
    simp only [reach, List.foldl_cons] at hi ⊢
    rw [move, hi]
    simp only [SortedSet.mem_unionAll, List.mem_map, SortedSet.mem_toList, path_cons_iff]
    constructor
    case mp =>
      rintro ⟨u, ⟨_, ⟨r, hr, rfl⟩, hu⟩, p⟩
      obtain ⟨s, hs, h⟩ := mem_closure_iff.mp hr
      exact ⟨s, hs, r, h, u, hu, p⟩
    case mpr =>
      rintro ⟨s, hs, r, h, u, hu, p⟩
      exact ⟨u, ⟨_, ⟨r, mem_closure_iff.mpr ⟨s, hs, h⟩, rfl⟩, hu⟩, p⟩

theorem accepts_iff_path : n.accepts w = true ↔
    ∃ s, n.start = some s ∧ ∃ t ∈ n.accepting, n.Path s w t := by
  rw [accepts]
  cases n.start
  case none   => simp
  case some s =>
    simp only [SortedSet.meets_iff, mem_reach_iff, SortedSet.mem_singleton, exists_eq_left,
      Option.some.injEq, exists_eq_left']
    exact exists_congr fun t => and_comm

theorem move_empty : n.move ∅ a = ∅ := by
  ext t
  simp [mem_move_iff]

theorem reach_empty : n.reach ∅ w = ∅ := by
  induction w
  case nil         => rfl
  case cons a w hi => simpa [reach, move_empty] using hi

end RightLinear.NFA
