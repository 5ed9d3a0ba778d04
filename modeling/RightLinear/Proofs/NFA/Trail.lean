import RightLinear.Proofs.NFA.Path

namespace RightLinear.NFA

variable {n : NFA} {s t : String} {w : List String} {rs : List (Arrow String)} {ls : Labels}

-- Follows a word symbol by symbol, and rejects it as soon as no state is left.
def scan (n : NFA) (ls : Labels) : List String → Bool
  | [] => ls.meets n.accepting
  | a :: word =>
    let next := n.move ls a
    if next.isEmpty then false else n.scan next word

-- Nothing is reached from the empty set, so what is left of the word does not matter.
theorem scan_eq : n.scan ls w = (n.reach ls w).meets n.accepting := by
  induction w generalizing ls
  case nil => rfl
  case cons a w hi =>
    have hr : n.reach ls (a :: w) = n.reach (n.move ls a) w := rfl
    cases he : (n.move ls a).isEmpty
    case false => simp [scan, he, hi, hr]
    case true  =>
      have hs : n.scan ls (a :: w) = false := by simp [scan, he]
      simp [hs, hr, SortedSet.isEmpty_iff.mp he, reach_empty, SortedSet.meets]

inductive Trail (n : NFA) : String → List (Arrow String) → String → Prop
  | nil (s : String) : Trail n s [] s
  | cons {r : Arrow String} {rs : List (Arrow String)} {t : String} (hr : r ∈ n.arrows)
    (h : Trail n r.target rs t) : Trail n r.source (r :: rs) t

theorem Trail.step {u a : String} (ht : t ∈ n.targets s a) (h : n.Trail t rs u) :
    n.Trail s (⟨s, a, t⟩ :: rs) u :=
  have hr : ⟨s, a, t⟩ ∈ n.arrows := mem_arrows_iff.mpr ht
  .cons hr h

-- The symbols of a word that are no ε.
def dropSilent (w : List String) : List String :=
  w.filter (· ≠ epsilon)

-- What is read along a trail.
def spelling (rs : List (Arrow String)) : List String :=
  dropSilent (rs.map (·.symbol))

theorem Trail.path (h : n.Trail s rs t) : n.Path s (spelling rs) t := by
  induction h
  case nil => exact .nil _
  case cons r rs _ hr _ hi =>
    have ht : r.target ∈ n.targets r.source r.symbol := mem_arrows_iff.mp hr
    by_cases he : r.symbol = epsilon
    case pos =>
      have hs : spelling (r :: rs) = spelling rs := by simp [spelling, dropSilent, he]
      exact hs ▸ .skip (he ▸ ht) hi
    case neg =>
      have hs : spelling (r :: rs) = r.symbol :: spelling rs := by simp [spelling, dropSilent, he]
      exact hs ▸ .read ht hi

-- A path that reads ε as a symbol would have a trail that does not spell it.
theorem Path.exists_trail (p : n.Path s w t) (hw : epsilon ∉ w) :
    ∃ rs, n.Trail s rs t ∧ spelling rs = w := by
  induction p
  case nil => exact ⟨[], .nil _, rfl⟩
  case skip h _ hi =>
    have ⟨_, hr, he⟩ := hi hw
    exact ⟨_, .step h hr, by simpa [spelling, dropSilent] using he⟩
  case read a w h _ hi =>
    have ⟨ha, hw⟩ : a ≠ epsilon ∧ epsilon ∉ w := by simpa [eq_comm] using hw
    have ⟨_, hr, he⟩ := hi hw
    exact ⟨_, .step h hr, by simpa [spelling, dropSilent, ha] using he⟩

theorem path_iff_trail (hw : epsilon ∉ w) :
    n.Path s w t ↔ ∃ rs, n.Trail s rs t ∧ spelling rs = w :=
  ⟨fun p => p.exists_trail hw, fun ⟨_, h, he⟩ => he ▸ h.path⟩

theorem accepts_iff_trail (hv : n.Valid) (hs : n.start = some s) (hw : ∀ a ∈ w, a ∈ n.alphabet) :
    n.accepts w = n.scan (n.closure (.singleton s)) w ∧
      (n.accepts w = true ↔
        ∃ t ∈ n.accepting, ∃ rs, n.Trail s rs t ∧ spelling rs = w) := by
  have he : epsilon ∉ w := fun h => hv.epsilon_not_mem (hw _ h)
  constructor
  case left  => simp [accepts, hs, scan_eq]
  case right => simp [accepts_iff_path, hs, path_iff_trail he]

-- Two ε-cycles, one through the start state and one through the accepting state.
def circling : NFA :=
  let bare := { NFA.empty with alphabet := ["a", "b"] }
  let arrows : List (Arrow String) :=
    [⟨"S", epsilon, "A"⟩, ⟨"A", epsilon, "S"⟩, ⟨"A", "a", "B"⟩, ⟨"B", epsilon, "C"⟩,
      ⟨"C", epsilon, "B"⟩, ⟨"C", "b", "A"⟩]
  arrows.foldl (fun n r => n.link r.source r.symbol r.target)
    ((bare.setStart "S").addAccepting "C")

-- The trail goes round both cycles before it reads on.
theorem accepts_iff_trail_circling : circling.Valid ∧ circling.start = some "S" ∧
    circling.accepts ["a", "b", "a"] = true ∧
    ¬∃ t ∈ circling.accepting, ∃ rs, circling.Trail "S" rs t ∧ spelling rs = ["a", "b"] := by
  have hv : circling.Valid := by decide +kernel
  have spelled {w : List String} (hw : ∀ a ∈ w, a ∈ circling.alphabet) :=
    (accepts_iff_trail hv (s := "S") rfl hw).right
  have trail : circling.Trail "S"
      [⟨"S", epsilon, "A"⟩, ⟨"A", epsilon, "S"⟩, ⟨"S", epsilon, "A"⟩, ⟨"A", "a", "B"⟩,
        ⟨"B", epsilon, "C"⟩, ⟨"C", epsilon, "B"⟩, ⟨"B", epsilon, "C"⟩, ⟨"C", "b", "A"⟩,
        ⟨"A", "a", "B"⟩, ⟨"B", epsilon, "C"⟩] "C" := by
    refine .step ?_ <| .step ?_ <| .step ?_ <| .step ?_ <| .step ?_ <| .step ?_ <| .step ?_ <|
      .step ?_ <| .step ?_ <| .step ?_ <| .nil "C" <;> decide +kernel
  refine ⟨hv, rfl, (spelled (by decide +kernel)).mpr ?accepted, fun h => ?rejected⟩
  case accepted => exact ⟨"C", by decide +kernel, _, trail, by decide +kernel⟩
  case rejected =>
    have hr : circling.accepts ["a", "b"] = false := by decide +kernel
    exact absurd ((spelled (by decide +kernel)).mpr h) (by simp [hr])

end RightLinear.NFA
