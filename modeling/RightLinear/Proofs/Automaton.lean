import RightLinear.Automaton

namespace RightLinear.Automaton

variable {m : Automaton String} {kind : Kind} {arrows : List (Arrow String)} {r : Arrow String}

theorem arrowFault?_eq_none_iff : m.arrowFault? kind r = none ↔
    r.source ∈ m.states ∧ r.target ∈ m.states ∧
      (r.symbol ∈ m.alphabet ∨ allows kind r.symbol = true) := by
  by_cases hs : r.source ∈ m.states <;> by_cases ht : r.target ∈ m.states <;>
    by_cases ha : r.symbol ∈ m.alphabet <;> simp [arrowFault?, hs, ht, ha]

theorem fault?_eq_none_iff : m.fault? kind arrows = none ↔
    epsilon ∉ m.alphabet ∧ (∀ s, m.start = some s → s ∈ m.states) ∧
      (∀ s ∈ m.accepting, s ∈ m.states) ∧ ∀ r ∈ arrows, m.arrowFault? kind r = none := by
  have stray : (m.accepting \ m.states).isEmpty = true ↔ ∀ s ∈ m.accepting, s ∈ m.states := by
    simp [SortedSet.isEmpty_iff, SortedSet.ext_iff]
  have start : m.start.filter (· ∉ m.states) = none ↔ ∀ s, m.start = some s → s ∈ m.states := by
    simp [Option.filter_eq_none_iff]
  rw [fault?]
  split
  case isTrue h  => simp [h]
  case isFalse h =>
    rw [← start, ← stray]
    split
    case h_1 hs => simp only [hs, reduceCtorEq, false_and, and_false]
    case h_2 hs =>
      by_cases ha : (m.accepting \ m.states).isEmpty = true
      · simp only [hs, h, ha, if_true, List.findSome?_eq_none_iff, not_false_eq_true, true_and]
      · simp only [ha, if_false, reduceCtorEq, false_and, and_false]

-- So it can be decided whether an automaton is well formed.
theorem wellFormed_iff :
    m.WellFormed kind arrows ↔ m.alphabet.Nodup ∧ m.fault? kind arrows = none := by
  simp only [fault?_eq_none_iff, arrowFault?_eq_none_iff]
  constructor
  case mp =>
    intro h
    exact ⟨h.alphabet_nodup, h.epsilon_not_mem, h.start_mem, h.accepting_mem, fun r hr =>
      ⟨h.source_mem r hr, h.target_mem r hr, h.symbol_mem r hr⟩⟩
  case mpr =>
    rintro ⟨hn, he, hs, ha, hr⟩
    exact ⟨hn, he, hs, ha, fun r h => (hr r h).left, fun r h => (hr r h).right.left,
      fun r h => (hr r h).right.right⟩

instance : Decidable (m.WellFormed kind arrows) :=
  decidable_of_iff _ wellFormed_iff.symm

def Faulty (m : Automaton String) (kind : Kind) (arrows : List (Arrow String)) : Prop :=
  epsilon ∈ m.alphabet ∨ (∃ s, m.start = some s ∧ s ∉ m.states) ∨
    (∃ s ∈ m.accepting, s ∉ m.states) ∨
    ∃ r ∈ arrows, r.source ∉ m.states ∨ r.target ∉ m.states ∨
      r.symbol ∉ m.alphabet ∧ ¬(kind = .nfa ∧ r.symbol = epsilon)

theorem exists_fault?_iff : (∃ f, m.fault? kind arrows = some f) ↔ m.Faulty kind arrows := by
  have allowed {a : String} : allows kind a = true ↔ kind = .nfa ∧ a = epsilon := by simp [allows]
  rw [← Option.ne_none_iff_exists', ne_eq, fault?_eq_none_iff]
  simp only [arrowFault?_eq_none_iff, Faulty, allowed]
  grind

variable {α : Type} {a b : α}

-- Something is made of an automaton's parts unless a fault is found in them.
theorem checked_eq_error_iff :
    (∃ f, (match m.fault? kind arrows with
        | some fault => .error (.invalid fault)
        | none => .ok a : Except Error α) = .error (.invalid f)) ↔ m.Faulty kind arrows := by
  rw [← exists_fault?_iff]
  cases m.fault? kind arrows <;> simp

theorem checked_eq_ok_iff :
    (match m.fault? kind arrows with
      | some fault => .error (.invalid fault)
      | none => .ok a : Except Error α) = .ok b ↔ ¬m.Faulty kind arrows ∧ a = b := by
  rw [← exists_fault?_iff]
  cases m.fault? kind arrows <;> simp

-- A start that is no state is found before faults of other states and of arrows.
theorem checked_of_start {s : String} (he : epsilon ∉ m.alphabet) (hs : m.start = some s)
    (hn : s ∉ m.states) :
    (match m.fault? kind arrows with
      | some fault => .error (.invalid fault)
      | none => .ok a : Except Error α) = .error (.invalid (.startNotState s)) := by
  simp [fault?, he, hs, Option.filter, hn]

theorem nodup_eraseDups {α : Type} [BEq α] [LawfulBEq α] (l : List α) : l.eraseDups.Nodup := by
  induction h : l.length using Nat.strongRecOn generalizing l
  case ind n hi =>
    cases l
    case nil      => simp
    case cons a l =>
      rw [List.eraseDups_cons, List.nodup_cons]
      constructor
      case left  => simp
      case right =>
        have hl : (l.filter fun b => !b == a).length ≤ l.length := List.length_filter_le ..
        exact hi _ (by rw [← h, List.length_cons]; omega) _ rfl

theorem eraseDups_of_nodup {l : List String} (h : l.Nodup) : l.eraseDups = l := by
  induction l
  case nil => rfl
  case cons a l hi =>
    have ⟨ha, hl⟩ := List.nodup_cons.mp h
    have hf : l.filter (fun b => !b == a) = l :=
      List.filter_eq_self.mpr fun b hb => by simpa using fun (he : b = a) => ha (he ▸ hb)
    rw [List.eraseDups_cons, hf, hi hl]

-- A repeated symbol of the alphabet makes no fault.
theorem faulty_eraseDups_iff :
    { m with alphabet := m.alphabet.eraseDups }.Faulty kind arrows ↔ m.Faulty kind arrows := by
  simp only [Faulty, List.mem_eraseDups]

theorem wellFormed_eraseDups_iff :
    { m with alphabet := m.alphabet.eraseDups }.WellFormed kind arrows ↔ ¬m.Faulty kind arrows := by
  rw [wellFormed_iff, ← faulty_eraseDups_iff, ← exists_fault?_iff, ← Option.ne_none_iff_exists',
    Classical.not_not]
  exact and_iff_right (nodup_eraseDups _)

end RightLinear.Automaton
