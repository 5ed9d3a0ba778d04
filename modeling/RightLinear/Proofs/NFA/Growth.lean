import Mathlib.Data.List.Dedup
import Mathlib.Data.List.Perm.Basic
import Mathlib.Tactic.Tauto
import RightLinear.Proofs.NFA.Path
import RightLinear.Proofs.Table

namespace RightLinear.NFA

variable {n m parts : NFA} {s t a q s' a' t' : String} {arrows : List (Arrow String)}

theorem mem_targets_link :
    t' ∈ (n.link s a t).targets s' a' ↔ ⟨s', a', t'⟩ = (⟨s, a, t⟩ : Arrow String) ∨
      t' ∈ n.targets s' a' := by
  simp only [targets, link, Table.find?_insert, addState]
  by_cases hs : s' = s
  case neg => simp [hs]
  case pos =>
    by_cases ha : a' = a
    case neg => cases hr : n.transitions.find? s <;> simp [hs, ha, hr]
    case pos => cases hr : n.transitions.find? s <;> simp [hs, ha, hr]

theorem mem_states_link : q ∈ (n.link s a t).states ↔ q = s ∨ q = t ∨ q ∈ n.states := by
  simp only [link, addState, SortedSet.mem_insert]
  tauto

def addArrows (n : NFA) (arrows : List (Arrow String)) : NFA :=
  arrows.foldl (fun n r => n.link r.source r.symbol r.target) n

theorem mem_targets_addArrows : t ∈ (n.addArrows arrows).targets s a ↔
    ⟨s, a, t⟩ ∈ arrows ∨ t ∈ n.targets s a := by
  induction arrows generalizing n
  case nil => simp [addArrows]
  case cons r arrows hi =>
    change _ ∈ ((n.link ..).addArrows arrows).targets s a ↔ _
    rw [hi, mem_targets_link, List.mem_cons]
    tauto

theorem mem_states_addArrows : q ∈ (n.addArrows arrows).states ↔
    (∃ r ∈ arrows, q = r.source ∨ q = r.target) ∨ q ∈ n.states := by
  induction arrows generalizing n
  case nil => simp [addArrows]
  case cons r arrows hi =>
    change q ∈ ((n.link ..).addArrows arrows).states ↔ _
    rw [hi, mem_states_link, List.exists_mem_cons_iff]
    simp only [or_assoc, or_left_comm]

-- Arrows change neither the alphabet nor the start nor what is accepted.
theorem addArrows_rest (n : NFA) (arrows : List (Arrow String)) :
    (n.addArrows arrows).alphabet = n.alphabet ∧ (n.addArrows arrows).start = n.start ∧
      (n.addArrows arrows).accepting = n.accepting := by
  induction arrows generalizing n
  case nil              => exact ⟨rfl, rfl, rfl⟩
  case cons r arrows hi => exact hi (n.link ..)

section

variable {α β : Type} {f : β → α → β} {l l' : List α} {a : α} {b : β}

-- What is put in later as well need not be put in first.
theorem foldl_apply_of_mem (hc : ∀ b a a', f (f b a) a' = f (f b a') a)
    (hi : ∀ b a, f (f b a) a = f b a) (ha : a ∈ l) : l.foldl f (f b a) = l.foldl f b := by
  induction ha generalizing b
  case head       => rw [List.foldl_cons, List.foldl_cons, hi]
  case tail _ hi' => rw [List.foldl_cons, List.foldl_cons, hc, hi']

theorem foldl_eq_of_mem_iff [DecidableEq α] (hc : ∀ b a a', f (f b a) a' = f (f b a') a)
    (hi : ∀ b a, f (f b a) a = f b a) (h : ∀ a, a ∈ l ↔ a ∈ l') :
    l.foldl f b = l'.foldl f b := by
  have once {l : List α} : l.foldl f b = l.dedup.foldl f b := by
    induction l generalizing b
    case nil          => rfl
    case cons a l hi' =>
      by_cases ha : a ∈ l
      case pos => rw [List.foldl_cons, foldl_apply_of_mem hc hi ha, List.dedup_cons_of_mem ha, hi']
      case neg => rw [List.dedup_cons_of_notMem ha, List.foldl_cons, List.foldl_cons, hi']
  have perm : l.dedup.Perm l'.dedup :=
    (List.perm_ext_iff_of_nodup l.nodup_dedup l'.nodup_dedup).mpr fun a => by simp [h]
  rw [once, @once l', perm.foldl_eq' fun a _ a' _ b => hc b a a']

end

-- What a new arrow does to the targets of its symbol, and to the row of its source.
def addTarget (t : String) (targets : Option Labels) : Labels :=
  (targets.getD ∅).insert t

def addToRow (a t : String) (row : Option (Table String Labels)) : Table String Labels :=
  (row.getD ∅).modify a (addTarget t)

theorem transitions_link :
    (n.link s a t).transitions = n.transitions.modify s (addToRow a t) :=
  rfl

theorem addToRow_comm {row : Option (Table String Labels)} :
    addToRow a' t' (some (addToRow a t row)) = addToRow a t (some (addToRow a' t' row)) :=
  Table.modify_comm fun _ => SortedSet.insert_comm

theorem addToRow_addToRow {row : Option (Table String Labels)} :
    addToRow a t (some (addToRow a t row)) = addToRow a t row :=
  Table.modify_modify fun _ => SortedSet.insert_insert

theorem link_comm : (n.link s a t).link s' a' t' = (n.link s' a' t').link s a t := by
  rw [NFA.mk.injEq, Automaton.mk.injEq]
  refine ⟨⟨?_, rfl, rfl, rfl⟩, ?_⟩
  · ext q
    simp only [mem_states_link]
    tauto
  · simp only [transitions_link]
    exact Table.modify_comm fun _ => addToRow_comm

theorem link_link : (n.link s a t).link s a t = n.link s a t := by
  rw [NFA.mk.injEq, Automaton.mk.injEq]
  refine ⟨⟨?_, rfl, rfl, rfl⟩, ?_⟩
  · ext q
    simp only [mem_states_link]
    tauto
  · simp only [transitions_link]
    exact Table.modify_modify fun _ => addToRow_addToRow

-- In which order arrows are added, and how often, does not matter.
theorem addArrows_eq_of_mem_iff {arrows' : List (Arrow String)}
    (h : ∀ r, r ∈ arrows ↔ r ∈ arrows') : n.addArrows arrows = n.addArrows arrows' :=
  foldl_eq_of_mem_iff (fun _ _ _ => link_comm) (fun _ _ => link_link) h

theorem make_eq_error_iff :
    (∃ f, make parts = .error (.invalid f)) ↔ parts.toAutomaton.Faulty .nfa parts.arrows :=
  Automaton.checked_eq_error_iff.trans Automaton.faulty_eraseDups_iff

theorem make_eq_ok_iff : make parts = .ok n ↔ ¬parts.toAutomaton.Faulty .nfa parts.arrows ∧
    { parts with alphabet := parts.alphabet.eraseDups } = n :=
  Automaton.checked_eq_ok_iff.trans (and_congr_left' (not_congr Automaton.faulty_eraseDups_iff))

theorem valid_of_make (h : make parts = .ok n) : n.Valid := by
  have ⟨hf, he⟩ := make_eq_ok_iff.mp h
  exact he ▸ Automaton.wellFormed_eraseDups_iff.mpr hf

namespace Valid

theorem symbol_mem (hv : n.Valid) (h : t ∈ n.targets s a) : a ∈ n.alphabet ∨ a = epsilon := by
  have h := Automaton.WellFormed.symbol_mem hv ⟨s, a, t⟩ (mem_arrows_iff.mpr h)
  simpa [Automaton.allows] using h

theorem addState (hv : n.Valid) : (n.addState s).Valid :=
  have mem {q : String} (h : q ∈ n.states) : q ∈ n.states.insert s :=
    SortedSet.mem_insert.mpr (.inr h)
  { hv with
    start_mem _ hq     := mem (hv.start_mem _ hq)
    accepting_mem _ hq := mem (hv.accepting_mem _ hq)
    source_mem _ hr    := mem (Automaton.WellFormed.source_mem hv _ hr)
    target_mem _ hr    := mem (Automaton.WellFormed.target_mem hv _ hr) }

theorem setStart (hv : n.Valid) : (n.setStart s).Valid :=
  { hv.addState with
    start_mem _ hq := SortedSet.mem_insert.mpr <| .inl (Option.some.inj hq).symm }

theorem addAccepting (hv : n.Valid) : (n.addAccepting s).Valid :=
  { hv.addState with
    accepting_mem _ hq :=
      SortedSet.mem_insert.mpr <| (SortedSet.mem_insert.mp hq).imp_right (hv.accepting_mem _) }

theorem addSymbol (hv : n.Valid) (h : n.addSymbol a = .ok m) : m.Valid := by
  simp only [NFA.addSymbol] at h
  split at h
  case isTrue     => cases h
  case isFalse he =>
    cases h
    exact { hv with
      alphabet_nodup   := Automaton.nodup_eraseDups _
      epsilon_not_mem  := he
      symbol_mem _ hr  := (Automaton.WellFormed.symbol_mem hv _ hr).imp_left fun h =>
        List.mem_eraseDups.mpr (List.mem_append_left _ h) }

theorem link (hv : n.Valid) (ha : a ∈ n.alphabet ∨ a = epsilon) : (n.link s a t).Valid where
  alphabet_nodup     := hv.alphabet_nodup
  epsilon_not_mem    := hv.epsilon_not_mem
  start_mem _ hq     := mem_states_link.mpr <| .inr <| .inr <| hv.start_mem _ hq
  accepting_mem _ hq := mem_states_link.mpr <| .inr <| .inr <| hv.accepting_mem _ hq
  source_mem r hr    := by
    cases mem_targets_link.mp (mem_arrows_iff.mp hr)
    case inl h => exact mem_states_link.mpr <| .inl (congrArg Arrow.source h)
    case inr h => exact mem_states_link.mpr <| .inr <| .inr <| hv.source_mem h
  target_mem r hr    := by
    cases mem_targets_link.mp (mem_arrows_iff.mp hr)
    case inl h => exact mem_states_link.mpr <| .inr <| .inl (congrArg Arrow.target h)
    case inr h => exact mem_states_link.mpr <| .inr <| .inr <| hv.target_mem h
  symbol_mem r hr    := by
    cases mem_targets_link.mp (mem_arrows_iff.mp hr)
    case inr h => exact Automaton.WellFormed.symbol_mem hv r (mem_arrows_iff.mpr h)
    case inl h =>
      have ha : r.symbol ∈ n.alphabet ∨ r.symbol = epsilon := congrArg Arrow.symbol h ▸ ha
      exact ha.imp_right fun h => by simp [Automaton.allows, h]

theorem addTransition (hv : n.Valid) (h : n.addTransition s a t = .ok m) : m.Valid := by
  rw [NFA.addTransition] at h
  split at h
  case isTrue     => cases h
  case isFalse ha =>
    cases h
    exact hv.link (by grind)

end Valid
end RightLinear.NFA
