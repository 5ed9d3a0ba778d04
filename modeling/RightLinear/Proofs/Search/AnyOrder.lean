import RightLinear.Proofs.Search

namespace RightLinear.Search

variable {α : Type} [DecidableEq α] {next : α → List α} {b : α} {nodes seeds expanded : List α}
  {q q' : Queue α} {k : Nat}

-- A number of expansions, one after another.
inductive Run (next : α → List α) : Nat → Queue α → Queue α → Prop
  | nil (q : Queue α) : Run next 0 q q
  | snoc {k : Nat} {q q' q'' : Queue α} (r : Run next k q q') (h : q'.Expands next q'') :
    Run next (k + 1) q q''

theorem exists_expands (h : q.waiting ≠ []) : ∃ q', q.Expands next q' := by
  obtain ⟨waiting, found⟩ := q
  obtain ⟨a, after, rfl⟩ := List.exists_cons_of_ne_nil h
  have h : Queue.Expands next ⟨[] ++ a :: after, found⟩ _ := .intro (.refl (next a))
  exact ⟨_, h⟩

-- The state of a search in any order, by the nodes that it has expanded.
structure Spread (next : α → List α) (seeds expanded : List α) (q : Queue α) : Prop where
  parts  : q.found.Perm (expanded ++ q.waiting)
  nodup  : q.found.Nodup
  seeded : ∀ a ∈ seeds, a ∈ q.found
  led    : ∀ b ∈ q.found, ∃ a ∈ seeds, Leads next a b
  closed : ∀ a ∈ expanded, ∀ b ∈ next a, b ∈ q.found

namespace Spread

omit [DecidableEq α] in
theorem start (hs : seeds.Nodup) : Spread next seeds [] ⟨seeds, seeds⟩ where
  parts  := .refl _
  nodup  := hs
  seeded := fun _ => id
  led    := fun b hb => ⟨b, hb, .refl⟩
  closed := by simp

theorem step (s : Spread next seeds expanded q) (h : q.Expands next q') :
    ∃ a, Spread next seeds (a :: expanded) q' := by
  cases h
  case intro before after found as a hp =>
    have hm : a ∈ found := s.parts.mem_iff.mpr (by simp)
    rw [foldl_discover]
    refine ⟨a, ?parts, append_fresh_nodup _ s.nodup, ?seeded, ?led, ?closed⟩
    case parts  =>
      have hw : (expanded ++ before ++ a :: after).Perm (a :: (expanded ++ before ++ after)) :=
        List.perm_middle
      rw [List.append_assoc, List.append_assoc] at hw
      simpa using (s.parts.trans hw).append_right (fresh found as)
    case seeded => exact fun b hb => List.mem_append_left _ (s.seeded b hb)
    case led    =>
      intro b hb
      cases List.mem_append.mp hb
      case inl hb => exact s.led b hb
      case inr hb =>
        have ⟨c, hc, hl⟩ := s.led a hm
        exact ⟨c, hc, hl.tail (hp.mem_iff.mp (mem_fresh.mp hb).left)⟩
    case closed =>
      intro c hc b hb
      by_cases hf : b ∈ found
      case pos => exact List.mem_append_left _ hf
      case neg =>
        cases hc
        case head    => exact List.mem_append_right _ (mem_fresh.mpr ⟨hp.mem_iff.mpr hb, hf⟩)
        case tail hc => exact absurd (s.closed c hc b hb) hf

theorem run (hs : seeds.Nodup) (r : Run next k ⟨seeds, seeds⟩ q) :
    ∃ expanded : List α, expanded.length = k ∧ Spread next seeds expanded q := by
  generalize hq : (⟨seeds, seeds⟩ : Queue α) = start at r
  induction r
  case nil       => exact ⟨[], rfl, hq ▸ .start hs⟩
  case snoc h hi =>
    have ⟨expanded, hl, s⟩ := hi hq
    have ⟨a, s⟩ := s.step h
    exact ⟨a :: expanded, congrArg (· + 1) hl, s⟩

omit [DecidableEq α] in
theorem length_found (s : Spread next seeds expanded q) :
    q.found.length = expanded.length + q.waiting.length :=
  s.parts.length_eq.trans List.length_append

omit [DecidableEq α] in
-- When no node waits, all that were found are expanded.
theorem mem_found_iff (s : Spread next seeds expanded q) (hw : q.waiting = []) :
    b ∈ q.found ↔ ∃ a ∈ seeds, Leads next a b := by
  have hf {a : α} : a ∈ q.found ↔ a ∈ expanded := by simp [s.parts.mem_iff, hw]
  constructor
  case mp  => exact s.led b
  case mpr =>
    intro ⟨a, ha, h⟩
    exact h.mem_of_closed (s.seeded a ha) fun a ha => s.closed a (hf.mp ha)

end Spread

-- A search ends, in whichever order: it makes no more expansions than there are nodes to be found,
-- it goes on while a node waits, and when none waits it has found these nodes.
structure EndsWith (next : α → List α) (start : Queue α) (nodes : List α) : Prop where
  bounded : ∀ k q, Run next k start q → k ≤ nodes.length
  goesOn  : ∀ k q, Run next k start q → q.waiting ≠ [] → ∃ q', q.Expands next q'
  found   : ∀ k q, Run next k start q → q.waiting = [] → k = nodes.length ∧ q.found.Perm nodes

-- Each node that the seeds lead to is expanded once, so every such search ends and has found them
-- all.
theorem ends_with (hs : seeds.Nodup) (hn : nodes.Nodup)
    (hl : ∀ b, b ∈ nodes ↔ ∃ a ∈ seeds, Leads next a b) :
    EndsWith next ⟨seeds, seeds⟩ nodes where
  goesOn _ _ _    := exists_expands
  bounded k q r   := by
    have ⟨expanded, he, s⟩ := Spread.run hs r
    have hf : q.found.length ≤ nodes.length :=
      s.nodup.length_le_of_subset fun b hb => (hl b).mpr (s.led b hb)
    rw [s.length_found] at hf
    omega
  found k q r hw := by
    have ⟨expanded, he, s⟩ := Spread.run hs r
    have hp : q.found.Perm nodes :=
      (List.perm_ext_iff_of_nodup s.nodup hn).mpr fun b => (s.mem_found_iff hw).trans (hl b).symm
    have hk := s.length_found
    rw [hw, hp.length_eq, List.length_nil] at hk
    exact ⟨by omega, hp⟩

end RightLinear.Search
