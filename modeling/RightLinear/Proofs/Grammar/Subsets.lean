import RightLinear.Proofs.Grammar.ToNFA
import RightLinear.Proofs.NFA.Determinize

namespace RightLinear.Grammar

variable {g : Grammar} {n : NFA} {rules : List (String × Shape)} {s q t a : String}
  {l l₁ l₂ : List String} {S T first : Labels} {rest : List Labels} {cs : List Char}

-- The labels that transitions lead to.
def Proper (g : Grammar) (q : String) : Prop :=
  (∃ c : Char, q = .singleton c) ∨ q = g.finalState

-- The name is one that a case file can give.
def Named (g : Grammar) : Prop :=
  g.name.toList.head? = some 'G'

theorem Named.toList_finalState (h : g.Named) :
    ∃ cs, g.finalState.toList = 'F' :: '_' :: 'G' :: cs := by
  have ⟨cs, hcs⟩ := List.head?_eq_some_iff.mp h
  exact ⟨cs, by rw [finalState, String.toList_append, hcs]; rfl⟩

-- The list of a set, by the characters of its labels.
def Increasing (l : List String) : Prop :=
  l.Pairwise fun q r => q.toList < r.toList

theorem Increasing.tail (h : Increasing (q :: l)) : Increasing l :=
  (List.pairwise_cons.mp h).right

theorem increasing_toList (S : Labels) : Increasing S.toList :=
  S.sorted

theorem Named.toList_ne_nil (h : g.Named) (hq : g.Proper q) : q.toList ≠ [] := by
  have ⟨fs, hf⟩ := h.toList_finalState
  rcases hq with ⟨c, rfl⟩ | rfl <;> simp [hf]

-- A first character that the accepting state does not have is a label.
theorem Named.eq_cons_of_flatMap {c : Char} (h : g.Named) (hp : ∀ q ∈ l, g.Proper q)
    (he : l.flatMap String.toList = c :: cs) (hc : c ≠ 'F') :
    ∃ l', l = .singleton c :: l' ∧ l'.flatMap String.toList = cs := by
  have ⟨fs, hf⟩ := h.toList_finalState
  cases l
  case nil => simp at he
  case cons q l =>
    rw [List.flatMap_cons] at he
    rcases hp q (.head _) with ⟨d, hd⟩ | hq
    · simp only [hd, String.toList_singleton, List.singleton_append, List.cons.injEq] at he
      exact ⟨l, by rw [hd, he.left], he.right⟩
    · simp only [hq, hf, List.cons_append, List.cons.injEq] at he
      exact absurd he.left.symm hc

-- The label of the accepting state cannot be put together from others, since the ones that would
-- follow its first character are in the wrong order.
theorem Named.flatMap_ne (h : g.Named) (hp : ∀ q ∈ l, g.Proper q) (hl : Increasing l) :
    l.flatMap String.toList ≠ '_' :: 'G' :: cs := by
  intro he
  have ⟨l₁, h₁, he₁⟩ := h.eq_cons_of_flatMap hp he (by decide)
  subst h₁
  have ⟨l₂, h₂, _⟩ := h.eq_cons_of_flatMap (List.forall_mem_cons.mp hp).right he₁ (by decide)
  subst h₂
  have hlt := (List.pairwise_cons.mp hl).left (.singleton 'G') (.head _)
  exact absurd hlt (by decide +kernel)

-- The induction goes through both lists side by side.
theorem Named.flatMap_injective (h : g.Named) (hp₁ : ∀ q ∈ l₁, g.Proper q)
    (hp₂ : ∀ q ∈ l₂, g.Proper q) (hl₁ : Increasing l₁) (hl₂ : Increasing l₂)
    (he : l₁.flatMap String.toList = l₂.flatMap String.toList) : l₁ = l₂ := by
  have ⟨fs, hf⟩ := h.toList_finalState
  induction l₁ generalizing l₂
  case nil =>
    cases l₂
    case nil       => rfl
    case cons r l₂ => simp [h.toList_ne_nil (hp₂ r (.head _))] at he
  case cons q l₁ hi =>
    cases l₂
    case nil => simp [h.toList_ne_nil (hp₁ q (.head _))] at he
    case cons r l₂ =>
      have ⟨hq, hp₁⟩ := List.forall_mem_cons.mp hp₁
      have ⟨hr, hp₂⟩ := List.forall_mem_cons.mp hp₂
      have hi := hi hp₁ hp₂ hl₁.tail hl₂.tail
      rw [List.flatMap_cons, List.flatMap_cons] at he
      rcases hq with ⟨c, hc⟩ | hq <;> rcases hr with ⟨d, hd⟩ | hr
      · simp only [hc, hd, String.toList_singleton, List.singleton_append, List.cons.injEq] at he
        rw [hc, hd, he.left, hi he.right]
      · simp only [hc, hr, hf, String.toList_singleton, List.cons_append, List.nil_append,
          List.cons.injEq] at he
        exact absurd he.right (h.flatMap_ne hp₁ hl₁.tail)
      · simp only [hq, hd, hf, String.toList_singleton, List.cons_append, List.nil_append,
          List.cons.injEq] at he
        exact absurd he.right.symm (h.flatMap_ne hp₂ hl₂.tail)
      · rw [hq, hr] at he ⊢
        rw [hi (List.append_cancel_left he)]

theorem Named.join_injective (h : g.Named) (hS : ∀ q ∈ S, g.Proper q) (hT : ∀ q ∈ T, g.Proper q)
    (he : String.join S.toList = String.join T.toList) : S = T := by
  have he := congrArg String.toList he
  rw [String.toList_join, String.toList_join] at he
  have hl := h.flatMap_injective hS hT (increasing_toList S) (increasing_toList T) he
  ext q
  rw [← SortedSet.mem_toList, hl, SortedSet.mem_toList]

theorem flatMap_pairwise (hs : ∀ q ∈ l, ∃ c : Char, q = .singleton c) (hl : Increasing l) :
    (l.flatMap String.toList).Pairwise (· < ·) := by
  induction l
  case nil => exact .nil
  case cons q l hi =>
    have ⟨⟨c, hc⟩, hs⟩ := List.forall_mem_cons.mp hs
    rw [List.flatMap_cons, hc, String.toList_singleton, List.singleton_append, List.pairwise_cons]
    refine ⟨fun d hd => ?_, hi hs hl.tail⟩
    have ⟨r, hr, hd⟩ := List.mem_flatMap.mp hd
    have ⟨e, he⟩ := hs r hr
    have hlt := (List.pairwise_cons.mp hl).left r hr
    rw [he, String.toList_singleton, List.mem_singleton] at hd
    simpa [hc, he, ← hd, List.cons_lt_cons_iff] using hlt

-- After a brace there are only single characters, in increasing order.
theorem Named.pairwise_of_brace (h : g.Named) (hp : ∀ q ∈ l, g.Proper q) (hl : Increasing l)
    (he : l.flatMap String.toList = '{' :: cs) : ('{' :: cs).Pairwise (· < ·) := by
  have ⟨fs, hf⟩ := h.toList_finalState
  have ⟨l', hl', _⟩ := h.eq_cons_of_flatMap hp he (by decide)
  subst hl'
  rw [← he]
  refine flatMap_pairwise (List.forall_mem_cons.mpr ⟨⟨'{', rfl⟩, fun q hq => ?_⟩) hl
  have hlt := (List.pairwise_cons.mp hl).left q hq
  rcases hp q (.tail _ hq) with hc | hF
  · exact hc
  · simp [hF, hf, List.cons_lt_cons_iff] at hlt

-- Of the sets of proper labels only one has braces that could be other labels written together.
theorem Named.eq_of_braced (h : g.Named) (hS : ∀ q ∈ S, g.Proper q) (hT : ∀ q ∈ T, g.Proper q)
    (hne : S ≠ ∅) (he : braced S.toList = String.join T.toList) : S.toList = ["|"] := by
  have ⟨fs, hf⟩ := h.toList_finalState
  have he := congrArg String.toList he
  rw [toList_braced (SortedSet.toList_ne_nil hne), String.toList_join] at he
  have hc := h.pairwise_of_brace hT (increasing_toList T) he.symm
  have between : ∀ c ∈ [','].intercalate (S.toList.map String.toList), c = '|' := by
    intro c hm
    have ⟨hlo, hp⟩ := List.pairwise_cons.mp hc
    have hlo : 123 < c.toNat := hlo c (List.mem_append_left _ hm)
    have hhi : c.toNat < 125 :=
      (List.pairwise_append.mp hp).right.right c hm '}' (List.mem_singleton.mpr rfl)
    apply Char.toNat_inj.mp
    show c.toNat = 124
    omega
  match hl : S.toList, SortedSet.toList_ne_nil hne with
  | [q], _ =>
    have hq : q ∈ S := SortedSet.mem_toList.mp (hl ▸ .head _)
    rcases hS q hq with ⟨c, hc⟩ | hF
    · have h : c = '|' := between c (by simp [hl, hc])
      rw [hc, h]
      rfl
    · exact absurd (between 'F' (by simp [hl, hF, hf])) (by decide)
  | q :: r :: l, _ => exact absurd (between ',' (by simp [hl])) (by decide)

namespace Translated

theorem proper_of_mem_targets (h : g.Translated s rules n) (hr : g.shapes = .ok rules)
    (ht : t ∈ n.targets q a) : g.Proper t := by
  obtain ⟨left, shape, hm, he⟩ := h.targets.mp ht
  cases shape <;> simp only [arrow, Arrow.mk.injEq] at he
  case empty    => exact .inr he.right.right.symm
  case terminal => exact .inr he.right.right.symm
  case step     =>
    obtain ⟨_, d, _, hd, _⟩ := (mem_shapes_step_iff hr).mp hm
    exact .inl ⟨d, he.right.right ▸ hd⟩

theorem proper_of_mem_move (h : g.Translated s rules n) (hr : g.shapes = .ok rules)
    (hq : q ∈ n.move S a) : g.Proper q := by
  have ⟨_, _, r, ht, hs⟩ := NFA.mem_move_iff.mp hq
  induction hs
  case refl       => exact h.proper_of_mem_targets hr ht
  case tail ht' _ => exact h.proper_of_mem_targets hr ht'

theorem reached_proper (h : g.Translated s rules n) (hr : g.shapes = .ok rules)
    (hS : n.Reached first S) : S = first ∨ ∀ q ∈ S, g.Proper q := by
  cases hS
  case first => exact .inl rfl
  case move  => exact .inr fun _ => h.proper_of_mem_move hr

-- The start symbol can only vanish.
theorem mem_first (h : g.Translated s rules n) (hr : g.shapes = .ok rules)
    (hq : q ∈ n.closure (.singleton s)) : q = s ∨ q = g.finalState := by
  have ⟨r, hrs, hs⟩ := NFA.mem_closure_iff.mp hq
  induction hs
  case refl      => exact .inl (SortedSet.mem_singleton.mp hrs)
  case tail ht _ => exact .inr ((h.mem_targets_epsilon_iff hr).mp ht).left

-- Only a set with proper labels has a bar alone for a name.
theorem proper_of_join_first (h : g.Translated s rules n) (hr : g.shapes = .ok rules)
    (hG : g.Named) (he : String.join (n.closure (.singleton s)).toList = "|") :
    ∀ q ∈ n.closure (.singleton s), g.Proper q := by
  have ⟨fs, hf⟩ := hG.toList_finalState
  have he := congrArg String.toList he
  rw [String.toList_join] at he
  have hq {q : String} (hq : q ∈ n.closure (.singleton s)) : q = s := by
    refine (h.mem_first hr hq).resolve_right fun hF => ?_
    have hm : 'F' ∈ (n.closure (.singleton s)).toList.flatMap String.toList :=
      List.mem_flatMap.mpr ⟨q, hq, by simp [hF, hf]⟩
    simp [he] at hm
  have hfirst : n.closure (.singleton s) = .singleton s := by
    ext q
    rw [SortedSet.mem_singleton]
    constructor
    case mp  => exact hq
    case mpr =>
      rintro rfl
      exact NFA.mem_closure_iff.mpr ⟨q, SortedSet.mem_singleton.mpr rfl, .refl⟩
  intro q hm
  refine .inl ⟨'|', String.toList_injective ?_⟩
  rw [hfirst] at he
  rw [hq hm]
  simpa [SortedSet.singleton, SortedSet.insert, SortedSet.place] using he

section

variable (h : g.Translated s rules n) (hr : g.shapes = .ok rules)
  (hs : n.subsets (n.closure (.singleton s)) = n.closure (.singleton s) :: rest)
include h hr hs

theorem reached_of_mem (hS : S ∈ n.closure (.singleton s) :: rest) :
    n.Reached (n.closure (.singleton s)) S := by
  have hv := h.valid hr
  exact (hv.mem_subsets_iff (hv.closure_start_sub h.start)).mp (hs ▸ hS)

theorem proper_of_mem_rest (hS : S ∈ rest) : ∀ q ∈ S, g.Proper q := by
  have hn : (n.closure (.singleton s) :: rest).Nodup := hs ▸ Search.explore_nodup
  refine (h.reached_proper hr (h.reached_of_mem hr hs (.tail _ hS))).resolve_left fun he => ?_
  exact (List.nodup_cons.mp hn).left (he ▸ hS)

-- A set can only clash with the first one, whose labels then are not all proper.
theorem eq_first_of_clashes (hG : g.Named)
    (hS : NFA.Clashes (n.closure (.singleton s)) rest S) :
    String.join S.toList = String.join (n.closure (.singleton s)).toList ∧
      ¬∀ q ∈ n.closure (.singleton s), g.Proper q := by
  obtain ⟨hS, T, hT, hne, he⟩ := hS
  have hpS := h.proper_of_mem_rest hr hs hS
  cases List.mem_cons.mp hT
  case inl hT =>
    subst hT
    exact ⟨he.symm, fun hp => hne (hG.join_injective hp hpS he)⟩
  case inr hT =>
    exact absurd (hG.join_injective (h.proper_of_mem_rest hr hs hT) hpS he) hne

-- Only the first set may have labels other than single characters and that of the accepting state,
-- so at most one set gets its labels in braces.
theorem separated (hG : g.Named) : NFA.Separated (n.closure (.singleton s)) rest where
  nodup := hs ▸ Search.explore_nodup
  braced_inj S T hS hT _ := by
    have ⟨hj, _⟩ := h.eq_first_of_clashes hr hs hG hS
    have ⟨hj', _⟩ := h.eq_first_of_clashes hr hs hG hT
    exact hG.join_injective (h.proper_of_mem_rest hr hs hS.left)
      (h.proper_of_mem_rest hr hs hT.left) (hj.trans hj'.symm)
  braced_ne S hS T hT he := by
    have ⟨hj, hp⟩ := h.eq_first_of_clashes hr hs hG hS
    have hpS := h.proper_of_mem_rest hr hs hS.left
    have hne : S ≠ ∅ :=
      (h.reached_of_mem hr hs (.tail _ hS.left)).ne_empty NFA.closure_singleton_ne_empty
    have hb : S.toList = ["|"] := by
      cases List.mem_cons.mp hT
      case inl hT => exact hG.eq_of_braced hpS hpS hne (he.trans (hT ▸ hj.symm))
      case inr hT => exact hG.eq_of_braced hpS (h.proper_of_mem_rest hr hs hT) hne he
    exact hp (h.proper_of_join_first hr hG (by rw [← hj, hb]; rfl))

end

end Translated

-- The label of the accepting state is no start symbol and no left side.
def Fresh (g : Grammar) : Prop :=
  g.start ≠ some g.finalState ∧ ∀ p ∈ g.productions, p.left ≠ g.finalState

instance : Decidable g.Fresh :=
  inferInstanceAs (Decidable (_ ∧ _))

structure Recognizes (d : DFA String) (g : Grammar) : Prop where
  valid    : d.Valid
  alphabet : d.alphabet = g.terminals
  start    : d.start.isSome = true
  accepts  : ∀ w, (∀ a ∈ w, a ∈ g.terminals) → (d.accepts w = true ↔ g.Generates w)

theorem Fresh.toNFA_accepts_iff {w : List String} (hf : g.Fresh) (h : g.Translated s rules n)
    (hs : g.start = some s) (hr : g.shapes = .ok rules) (hw : ∀ a ∈ w, a ∈ g.terminals) :
    n.accepts w = true ↔ g.Generates w := by
  have ha : g.AbsorbsFinal s := absorbsFinal_of_fresh (fun he => hf.left (he ▸ hs)) hf.right
  constructor
  case mp =>
    intro hacc
    exact ⟨s, hs, h.derives_of_accepts hr ha (epsilon_not_mem_of_terminals hw) hacc⟩
  case mpr =>
    rintro ⟨s', hs', hd⟩
    cases hs.symm.trans hs'
    exact h.accepts_of_derives hr hd

theorem Named.recognizes {d : DFA String} (hG : g.Named) (hf : g.Fresh) (h : g.toDFA = .ok d) :
    Recognizes d g := by
  obtain ⟨n, hn, hd⟩ := exists_of_bind_eq_ok h
  have ⟨s, rules, hs, hr⟩ := exists_start_of_toNFA hn
  have ⟨n', hn', ht⟩ := toNFA_translated hs hr
  cases hn.symm.trans hn'
  have ⟨d', hd', hdet⟩ :=
    (ht.valid hr).toDFA_determinized ht.start fun _ hs => ht.separated hr hs hG
  cases hd.symm.trans hd'
  refine ⟨hdet.valid, hdet.alphabet.trans ht.alphabet, by rw [hdet.start]; rfl, fun w hw => ?_⟩
  rw [hdet.accepts_eq NFA.closure_singleton_ne_empty (ht.alphabet ▸ hw),
    ← NFA.accepts_eq_meets ht.start]
  exact hf.toNFA_accepts_iff ht hs hr hw

end RightLinear.Grammar
