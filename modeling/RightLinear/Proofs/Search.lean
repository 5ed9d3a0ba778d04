import Mathlib.Computability.StateTransition
import RightLinear.Search

namespace RightLinear.Search

variable {α : Type} [DecidableEq α] {next : α → List α} {a b : α}

def Leads (next : α → List α) : α → α → Prop :=
  Relation.ReflTransGen fun a b => b ∈ next a

omit [DecidableEq α] in
theorem Leads.mem_of_closed {found : List α} (h : Leads next a b) (ha : a ∈ found)
    (hc : ∀ a ∈ found, ∀ b ∈ next a, b ∈ found) : b ∈ found := by
  induction h
  case refl         => exact ha
  case tail hs hi => exact hc _ hi _ hs

theorem append_fresh_nodup {found : List α} (as : List α) (h : found.Nodup) :
    (found ++ fresh found as).Nodup := by
  induction as generalizing found
  case nil => simpa [fresh]
  case cons a as hi =>
    rw [fresh]
    split
    case isTrue  => exact hi h
    case isFalse ha =>
      have hn : (found ++ [a]).Nodup := by
        simpa [List.nodup_append, h] using fun b hb (he : b = a) => ha (he ▸ hb)
      simpa using hi hn

theorem prefix_expand {fuel : Nat} {waiting found : List α} :
    found <+: expand next fuel waiting found := by
  induction fuel generalizing waiting found
  case zero => simp [expand]
  case succ fuel hi =>
    cases waiting
    case nil          => simp [expand]
    case cons a waiting => exact (List.prefix_append ..).trans hi

theorem leads_of_mem_expand {fuel : Nat} {waiting found : List α}
    (h : b ∈ expand next fuel waiting found) : b ∈ found ∨ ∃ a ∈ waiting, Leads next a b := by
  induction fuel generalizing waiting found
  case zero => exact .inl h
  case succ fuel hi =>
    cases waiting
    case nil => exact .inl h
    case cons a waiting =>
      -- a node that was new here is a successor of the node that was expanded
      have new {c : α} (hc : c ∈ fresh found (next a)) : Leads next a c :=
        .single (mem_fresh.mp hc).left
      cases hi h
      case inl h =>
        cases List.mem_append.mp h
        case inl h => exact .inl h
        case inr h => exact .inr ⟨a, .head _, new h⟩
      case inr h =>
        have ⟨c, hc, hl⟩ := h
        cases List.mem_append.mp hc
        case inl hc => exact .inr ⟨c, .tail _ hc, hl⟩
        case inr hc => exact .inr ⟨a, .head _, (new hc).trans hl⟩

-- The state of a search between two expansions. What was found splits into nodes that are expanded,
-- whose successors were found too, and nodes that wait.
structure Frontier (next : α → List α) (nodes expanded waiting found : List α) : Prop where
  parts  : found = expanded ++ waiting
  nodup  : found.Nodup
  sub    : ∀ a ∈ found, a ∈ nodes
  closed : ∀ a ∈ expanded, ∀ b ∈ next a, b ∈ found

namespace Frontier

variable {nodes expanded waiting found : List α}

omit [DecidableEq α] in
theorem length_le (f : Frontier next nodes expanded waiting found) :
    expanded.length + waiting.length ≤ nodes.length := by
  have h := f.nodup.length_le_of_subset f.sub
  rwa [f.parts, List.length_append] at h

theorem step (f : Frontier next nodes expanded (a :: waiting) found)
    (hu : ∀ a ∈ nodes, ∀ b ∈ next a, b ∈ nodes) :
    Frontier next nodes (expanded ++ [a]) (waiting ++ fresh found (next a))
      (found ++ fresh found (next a)) where
  parts := by simp [f.parts]
  nodup := append_fresh_nodup _ f.nodup
  sub b hb := by
    cases List.mem_append.mp hb
    case inl hb => exact f.sub b hb
    case inr hb => exact hu a (f.sub a <| by simp [f.parts]) b (mem_fresh.mp hb).left
  closed b hb c hc := by
    cases List.mem_append.mp hb
    case inl hb => exact List.mem_append_left _ (f.closed b hb c hc)
    case inr hb =>
      simp only [List.mem_singleton] at hb
      by_cases hf : c ∈ found
      case pos => exact List.mem_append_left _ hf
      case neg => exact List.mem_append_right _ (mem_fresh.mpr ⟨hb ▸ hc, hf⟩)

end Frontier

theorem foldl_discover {q : Queue α} {as : List α} : as.foldl Queue.discover q =
    ⟨q.waiting ++ fresh q.found as, q.found ++ fresh q.found as⟩ := by
  induction as generalizing q
  case nil => simp [fresh]
  case cons a as hi =>
    rw [List.foldl_cons, hi, Queue.discover, fresh]
    split <;> simp

theorem start_eq {seeds : List α} : Queue.start seeds = ⟨fresh [] seeds, fresh [] seeds⟩ := by
  rw [Queue.start, foldl_discover, List.nil_append]

theorem step_cons {waiting found : List α} : Queue.step next ⟨a :: waiting, found⟩ =
    some ⟨waiting ++ fresh found (next a), found ++ fresh found (next a)⟩ := by
  simp only [Queue.step, foldl_discover]

-- Each expansion moves one node to those that are expanded, so when the bound is used up none
-- waits.
theorem Frontier.expand {nodes expanded waiting found : List α} {fuel : Nat}
    (f : Frontier next nodes expanded waiting found)
    (hu : ∀ a ∈ nodes, ∀ b ∈ next a, b ∈ nodes) (hl : nodes.length ≤ fuel + expanded.length) :
    (∃ all, Frontier next nodes all [] (expand next fuel waiting found)) ∧
      ⟨[], Search.expand next fuel waiting found⟩ ∈
        StateTransition.eval (Queue.step next) ⟨waiting, found⟩ := by
  induction fuel generalizing expanded waiting found
  case zero =>
    have hw : waiting = [] := List.length_eq_zero_iff.mp (by have := f.length_le; omega)
    subst hw
    exact ⟨⟨expanded, f⟩, StateTransition.mem_eval.mpr ⟨.refl, rfl⟩⟩
  case succ fuel hi =>
    cases waiting
    case nil => exact ⟨⟨expanded, f⟩, StateTransition.mem_eval.mpr ⟨.refl, rfl⟩⟩
    case cons a waiting =>
      have hs : Queue.step next ⟨a :: waiting, found⟩ = some _ := step_cons
      have hl : nodes.length ≤ fuel + (expanded ++ [a]).length := by
        simp only [List.length_append, List.length_singleton]
        omega
      rw [StateTransition.reaches_eval (.single hs)]
      exact hi (f.step hu) hl

theorem expand_closed {nodes expanded waiting found : List α} {fuel : Nat}
    (f : Frontier next nodes expanded waiting found)
    (hu : ∀ a ∈ nodes, ∀ b ∈ next a, b ∈ nodes) (hl : nodes.length ≤ fuel + expanded.length) :
    ∀ a ∈ expand next fuel waiting found, ∀ b ∈ next a, b ∈ expand next fuel waiting found := by
  have ⟨⟨all, h⟩, _⟩ := f.expand hu hl
  have hs := h.parts.trans (List.append_nil all)
  exact hs ▸ h.closed

theorem expand_nodup {fuel : Nat} {waiting found : List α} (h : found.Nodup) :
    (expand next fuel waiting found).Nodup := by
  induction fuel generalizing waiting found
  case zero => exact h
  case succ fuel hi =>
    cases waiting
    case nil            => exact h
    case cons a waiting => exact hi (append_fresh_nodup _ h)

theorem fresh_nil_nodup (seeds : List α) : (fresh [] seeds).Nodup := by
  simpa using append_fresh_nodup seeds List.nodup_nil

variable {nodes seeds : List α} {fuel : Nat}

theorem explore_nodup : (explore next fuel seeds).Nodup :=
  expand_nodup (fresh_nil_nodup seeds)

theorem explore_singleton : ∃ rest, explore next fuel [a] = a :: rest := by
  have ⟨rest, h⟩ : [a] <+: explore next fuel [a] := prefix_expand
  exact ⟨rest, h.symm⟩

-- A search begins with nothing expanded.
theorem frontier_seeds (hs : ∀ a ∈ seeds, a ∈ nodes) :
    Frontier next nodes [] (fresh [] seeds) (fresh [] seeds) where
  parts  := rfl
  nodup  := fresh_nil_nodup seeds
  sub    := fun a ha => hs a (mem_fresh.mp ha).left
  closed := by simp

-- As long as the bound is the size of a list that holds every node, it is not what ends the search.
theorem mem_explore_iff (hu : ∀ a ∈ nodes, ∀ b ∈ next a, b ∈ nodes)
    (hs : ∀ a ∈ seeds, a ∈ nodes) (hl : nodes.length ≤ fuel) :
    b ∈ explore next fuel seeds ↔ ∃ a ∈ seeds, Leads next a b := by
  constructor
  case mp =>
    intro h
    cases leads_of_mem_expand h
    case inl h => exact ⟨b, (mem_fresh.mp h).left, .refl⟩
    case inr h =>
      have ⟨a, ha, h⟩ := h
      exact ⟨a, (mem_fresh.mp ha).left, h⟩
  case mpr =>
    rintro ⟨a, ha, h⟩
    have hf : a ∈ fresh [] seeds := mem_fresh.mpr ⟨ha, by simp⟩
    exact h.mem_of_closed (prefix_expand.subset hf) (expand_closed (frontier_seeds hs) hu hl)

theorem explore_mem_eval (hu : ∀ a ∈ nodes, ∀ b ∈ next a, b ∈ nodes)
    (hs : ∀ a ∈ seeds, a ∈ nodes) (hl : nodes.length ≤ fuel) :
    ⟨[], explore next fuel seeds⟩ ∈ StateTransition.eval (Queue.step next) (.start seeds) := by
  rw [start_eq]
  exact ((frontier_seeds hs).expand hu hl).right

end RightLinear.Search
