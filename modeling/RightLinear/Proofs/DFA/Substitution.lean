import RightLinear.Proofs.InPlace
import RightLinear.Proofs.Key

namespace RightLinear.DFA

variable {τ : Type} [Key τ] {d : DFA String} {f : String → τ} {p u : τ} {a s q t : String}

section

variable {row : Table String String} {es before after : List (String × Table String String)}
  {rows : Table τ (Table String τ)}

-- Rows that lack the transition leave it as it is.
theorem find?_foldl_putRow_of_lacking (h : ∀ e ∈ es, f e.1 = p → e.2.find? a = none) :
    (((es.foldl (putRow f) rows).find? p).getD ∅).find? a = ((rows.find? p).getD ∅).find? a := by
  induction es generalizing rows
  case nil => rfl
  case cons e es hi =>
    have ⟨he, h⟩ := List.forall_mem_cons.mp h
    rw [List.foldl_cons, hi h, find?_putRow]
    split
    case isTrue hp => rw [he hp, Option.map_none, Option.none_or]
    case isFalse   => rfl

-- The last row that has the transition gives it.
theorem find?_foldl_putRow_of_last (hs : f s = p) (ht : row.find? a = some t)
    (h : ∀ e ∈ after, f e.1 = p → e.2.find? a = none) :
    ((((before ++ (s, row) :: after).foldl (putRow f) rows).find? p).getD ∅).find? a =
      some (f t) := by
  rw [List.foldl_append, List.foldl_cons, find?_foldl_putRow_of_lacking h, find?_putRow, if_pos hs,
    ht, Option.map_some, Option.some_or]

end

-- The greatest of the states with a new label that have a transition.
structure LastSource (d : DFA String) (f : String → τ) (p : τ) (a s : String) : Prop where
  label : f s = p
  moves : ∃ t, d.next s a = some t
  last  : ∀ q t, f q = p → d.next q a = some t → ¬s < q

theorem exists_lastSource (hq : f q = p) (ht : d.next q a = some t) :
    ∃ s, d.LastSource f p a s := by
  have mem {s t : String} (h : d.next s a = some t) : s ∈ d.transitions.keys.reverse := by
    have ⟨row, hr, _⟩ := next_eq_some_iff.mp h
    exact List.mem_reverse.mpr (Table.mem_keys_iff.mpr ⟨row, hr⟩)
  cases hs : d.transitions.keys.reverse.find? fun s => f s = p ∧ (d.next s a).isSome
  case none   => simpa [hq, ht] using List.find?_eq_none.mp hs q (mem ht)
  case some s =>
    -- the keys from the greatest down, with the first one that is meant between the others
    obtain ⟨hs, before, after, hk, hb⟩ := List.find?_eq_some_iff_append.mp hs
    have ⟨hl, hm⟩ : f s = p ∧ (d.next s a).isSome := by simpa using hs
    refine ⟨s, hl, Option.isSome_iff_exists.mp hm, fun q t hq ht hlt => ?_⟩
    have sorted := List.pairwise_reverse.mpr d.transitions.keys_sorted
    have hm : q ∈ before :=
      (Key.mem_before_iff (fun _ _ => Key.asymm) sorted hk).mpr ⟨mem ht, hlt⟩
    simpa [hq, ht] using hb q hm

theorem LastSource.next_relabelled (h : d.LastSource f p a s) (ht : d.next s a = some t) :
    (d.relabelled f).next p a = some (f t) := by
  have ⟨row, hr, ha⟩ := next_eq_some_iff.mp ht
  have ⟨before, after, he⟩ := List.append_of_mem (Table.find?_eq_some_iff.mp hr)
  change (((d.transitions.entries.foldl (putRow f) ∅).find? p).getD ∅).find? a = _
  rw [he]
  refine find?_foldl_putRow_of_last h.label ha fun ⟨q, row'⟩ hq hl => ?_
  have sorted := he ▸ d.transitions.sorted
  have hlt : s < q := List.rel_of_pairwise_cons (List.pairwise_append.mp sorted).right.left hq
  have hm : (q, row') ∈ d.transitions.entries :=
    he ▸ List.mem_append_right before (.tail _ hq)
  cases hn : row'.find? a
  case none    => rfl
  case some t' =>
    have hn := next_eq_some_iff.mpr ⟨row', Table.find?_eq_some_iff.mpr hm, hn⟩
    exact absurd hlt (h.last q t' hl hn)

-- Rows of states that become one are put over one another, and the greatest of these states that
-- has a transition gives it.
theorem next_relabelled_iff : (d.relabelled f).next p a = some u ↔
    ∃ s t, d.LastSource f p a s ∧ d.next s a = some t ∧ f t = u := by
  constructor
  case mp  =>
    intro h
    have ⟨q, _, hn, hq, _⟩ := exists_of_next_relabelled h
    have ⟨s, hs⟩ := exists_lastSource hq hn
    have ⟨t, ht⟩ := hs.moves
    exact ⟨s, t, hs, ht, Option.some.inj ((hs.next_relabelled ht).symm.trans h)⟩
  case mpr =>
    rintro ⟨s, t, hs, ht, rfl⟩
    exact hs.next_relabelled ht

theorem next_relabelled_eq_none_iff : (d.relabelled f).next p a = none ↔
    ∀ s, f s = p → d.next s a = none := by
  constructor
  case mp  =>
    intro h s hs
    cases ht : d.next s a
    case none   => rfl
    case some t =>
      have ⟨q, hq⟩ := exists_lastSource hs ht
      have ⟨u, hu⟩ := hq.moves
      simp [hq.next_relabelled hu] at h
  case mpr =>
    intro h
    cases hn : (d.relabelled f).next p a
    case none   => rfl
    case some u =>
      have ⟨s, t, ht, hs, _⟩ := exists_of_next_relabelled hn
      simp [h s hs] at ht

-- All that a DFA has after its states got new labels, states that became one included.
structure Substituted (d e : DFA String) (f : String → String) : Prop where
  states    : ∀ p, p ∈ e.states ↔ ∃ s ∈ d.states, f s = p
  alphabet  : e.alphabet = d.alphabet
  start     : e.start = d.start.map f
  accepting : ∀ p, p ∈ e.accepting ↔ ∃ s ∈ d.accepting, f s = p
  sources   : ∀ p, p ∈ e.transitions.keys ↔ ∃ s ∈ d.transitions.keys, f s = p
  next      : ∀ p a u, e.next p a = some u ↔
    ∃ s t, d.LastSource f p a s ∧ d.next s a = some t ∧ f t = u
  absent    : ∀ p a, e.next p a = none ↔ ∀ s, f s = p → d.next s a = none

theorem substituted_relabelled {f : String → String} : d.Substituted (d.relabelled f) f where
  states _    := SortedSet.mem_image
  alphabet    := rfl
  start       := rfl
  accepting _ := SortedSet.mem_image
  sources _   := mem_keys_relabelled
  next _ _ _  := next_relabelled_iff
  absent _ _  := next_relabelled_eq_none_iff

theorem eq_of_rows {d e : DFA τ} (hs : d.states = e.states) (ha : d.alphabet = e.alphabet)
    (hi : d.start = e.start) (hf : d.accepting = e.accepting) (hd : d.NoStrayRow)
    (he : e.NoStrayRow) (hr : ∀ s ∈ d.states, d.transitions.find? s = e.transitions.find? s) :
    d = e := by
  have stray {d : DFA τ} {s : τ} (hd : d.NoStrayRow) (hs : s ∉ d.states) :
      d.transitions.find? s = none := by
    cases h : d.transitions.find? s
    case none     => rfl
    case some row => exact absurd (hd s (Table.mem_keys_iff.mpr ⟨row, h⟩)) hs
  have ht : d.transitions = e.transitions := by
    ext s : 1
    by_cases hm : s ∈ d.states
    case pos => exact hr s hm
    case neg => rw [stray hd hm, stray he (hs ▸ hm)]
  obtain ⟨⟨_, _, _, _⟩, _⟩ := d
  obtain ⟨⟨_, _, _, _⟩, _⟩ := e
  cases hs; cases ha; cases hi; cases hf; cases ht
  rfl

omit [Key τ] in
theorem Relabelling.comp {f : String → String} {g : String → τ} (hf : Relabelling d f)
    (hg : Relabelling (d.relabelled f) g) : Relabelling d (g ∘ f) where
  valid := hf.valid
  rows  := hf.rows
  injOn := hg.injOn.comp hf.injOn fun s hs => SortedSet.mem_image.mpr ⟨s, hs, rfl⟩

theorem Relabelling.relabelled_relabelled {f : String → String} {g : String → τ}
    (hf : Relabelling d f) (hg : Relabelling (d.relabelled f) g) :
    (d.relabelled f).relabelled g = d.relabelled (g ∘ f) := by
  have image {ls : Labels} : (ls.image f).image g = ls.image (g ∘ f) := by
    ext p
    simp
  refine eq_of_rows (e := d.relabelled (g ∘ f)) image rfl (Option.map_map ..) image
    (hg.rows.relabelled g) (hf.rows.relabelled _) fun p hp => ?_
  have ⟨q, hq, hp⟩ := SortedSet.mem_image.mp hp
  have ⟨s, hs, hq'⟩ := SortedSet.mem_image.mp hq
  subst hq' hp
  have ht : (d.relabelled (g ∘ f)).transitions.find? (g (f s)) = _ :=
    (hf.comp hg).find?_relabelled hs
  have hrow {row : Table String String} :
      (row.map fun _ => f).map (fun _ => g) = row.map fun _ => g ∘ f := by
    ext a : 1
    simp
  rw [ht, hg.find?_relabelled hq, hf.find?_relabelled hs, Option.map_map]
  exact congrArg (Option.map · _) (funext fun _ => hrow)

theorem Valid.relabelled_of_fixed {f : String → String} (hv : d.Valid) (hr : d.NoStrayRow)
    (hf : ∀ s ∈ d.states, f s = s) : d.relabelled f = d := by
  have image {ls : Labels} (hl : ∀ s ∈ ls, s ∈ d.states) : ls.image f = ls := by
    ext p
    rw [SortedSet.mem_image]
    constructor
    case mp  =>
      rintro ⟨s, hs, rfl⟩
      rwa [hf s (hl s hs)]
    case mpr => exact fun hp => ⟨p, hp, hf p (hl p hp)⟩
  have hi : Relabelling d f :=
    ⟨hv, hr, fun s hs q hq he => (hf s hs).symm.trans (he.trans (hf q hq))⟩
  have hstart : d.start.map f = d.start := by
    cases hs : d.start
    case none   => rfl
    case some s => rw [Option.map_some, hf s (hv.start_mem s hs)]
  have hstates : (d.relabelled f).states = d.states := image fun _ hs => hs
  refine eq_of_rows hstates rfl hstart (image hv.accepting_mem) (hr.relabelled f) hr fun s hs => ?_
  have hs : s ∈ d.states := hstates ▸ hs
  have ht := hi.find?_relabelled hs
  rw [hf s hs] at ht
  rw [ht]
  cases hrow : d.transitions.find? s
  case none     => rfl
  case some row =>
    refine congrArg some (Table.ext fun a => ?_)
    rw [Table.find?_map]
    cases ha : row.find? a
    case none   => rfl
    case some t =>
      have hn : d.next s a = some t := next_eq_some_iff.mpr ⟨row, hrow, ha⟩
      rw [Option.map_some, hf t (hv.target_mem hn)]

-- The new label of a state; a state that the map leaves out keeps its label.
def newLabel (map : Table String String) (s : String) : String :=
  (map.find? s).getD s

-- A map that gives the states their old labels back.
def Undoes (d : DFA String) (map back : Table String String) : Prop :=
  ∀ s ∈ d.states, newLabel back (newLabel map s) = s

-- The states by their new labels.
def inverse (d : DFA String) (map : Table String String) : Table String String :=
  .ofList (d.states.toList.map fun s => (newLabel map s, s))

variable {map back : Table String String}

theorem undoes_inverse (hf : Set.InjOn (newLabel map) {s | s ∈ d.states}) :
    d.Undoes map (d.inverse map) := by
  intro s hs
  have hl : Set.InjOn (newLabel map) {s | s ∈ d.states.toList} := by simpa using hf
  have hi : (d.inverse map).find? (newLabel map s) = some s :=
    Table.find?_ofList_map hl (SortedSet.mem_toList.mpr hs)
  rw [newLabel, hi, Option.getD_some]

theorem Undoes.relabelling (hu : d.Undoes map back) (hf : Relabelling d (newLabel map)) :
    Relabelling (d.relabelled (newLabel map)) (newLabel back) where
  valid := hf.valid.relabelled _
  rows  := hf.rows.relabelled _
  injOn := by
    rintro p hp q hq he
    obtain ⟨s, hs, rfl⟩ := SortedSet.mem_image.mp hp
    obtain ⟨t, ht, rfl⟩ := SortedSet.mem_image.mp hq
    rw [hu s hs, hu t ht] at he
    rw [he]

theorem run_relabelWith (hv : d.Valid) (hr : d.NoStrayRow) :
    (InPlace.relabelWith map).run d = .ok () (d.relabelled (newLabel map)) :=
  (Edit.relabelWith map).run_change_of_ok hv (relabel_eq_ok_iff.mpr ⟨hr, rfl⟩)

theorem Undoes.run_relabelWith (hu : d.Undoes map back) (hf : Relabelling d (newLabel map)) :
    (InPlace.relabelWith back).run (d.relabelled (newLabel map)) = .ok () d := by
  have hb := hu.relabelling hf
  have hd : d.relabelled (newLabel back ∘ newLabel map) = d :=
    hf.valid.relabelled_of_fixed hf.rows hu
  rw [DFA.run_relabelWith hb.valid hb.rows, hf.relabelled_relabelled hb, hd]

theorem relabelWith_simultaneous (hv : d.Valid) (hr : d.NoStrayRow)
    (map : Table String String) : ∃ e, (InPlace.relabelWith map).run d = .ok () e ∧
      d.Substituted e (newLabel map) ∧
      (Set.InjOn (newLabel map) {s | s ∈ d.states} →
        (∀ w, e.accepts w = d.accepts w) ∧ d.Undoes map (d.inverse map) ∧
          ∀ back, d.Undoes map back → (InPlace.relabelWith back).run e = .ok () d) := by
  refine ⟨d.relabelled (newLabel map), run_relabelWith hv hr, substituted_relabelled,
    fun hi => ?_⟩
  have hf : Relabelling d (newLabel map) := ⟨hv, hr, hi⟩
  exact ⟨fun _ => hf.accepts_eq, undoes_inverse hi, fun _ hu => hu.run_relabelWith hf⟩

-- A state without transitions that has a row, and one that has none.
def tangled : DFA String where
  states      := .ofList ["A", "B", "C", "D", "E"]
  alphabet    := ["a", "b"]
  start       := some "A"
  accepting   := .ofList ["C"]
  transitions := .ofList [("A", .ofList [("a", "B")]), ("B", .ofList [("a", "C"), ("b", "A")]),
    ("C", .ofList [("a", "D")]), ("D", ∅)]

-- A chain on whose last label two states become one, with a label that no state has.
def chain : Table String String :=
  .ofList [("A", "C"), ("C", "B"), ("gone", "A")]

def cycle : Table String String :=
  .ofList [("A", "B"), ("B", "C"), ("C", "A")]

theorem relabelWith_simultaneous_tangled : tangled.Valid ∧ tangled.NoStrayRow ∧
    (∃ e, (InPlace.relabelWith chain).run tangled = .ok () e ∧
      e.next "B" "a" = some "D" ∧ e.next "B" "b" = some "C") ∧
    ∃ e, (InPlace.relabelWith cycle).run tangled = .ok () e ∧ e.start = some "B" ∧
      (∀ w, e.accepts w = tangled.accepts w) ∧
      (InPlace.relabelWith (.ofList [("B", "A"), ("C", "B"), ("A", "C")])).run e =
        .ok () tangled := by
  have hv : tangled.Valid := by decide +kernel
  have hr : tangled.NoStrayRow := by decide +kernel
  have ⟨e, he, hs, _⟩ := relabelWith_simultaneous hv hr chain
  have ⟨e', he', hs', hi⟩ := relabelWith_simultaneous hv hr cycle
  have hn : Set.InjOn (newLabel cycle) {s | s ∈ tangled.states} := by
    have h : ∀ s ∈ tangled.states.toList, ∀ q ∈ tangled.states.toList,
        newLabel cycle s = newLabel cycle q → s = q := by decide +kernel
    exact fun s hs q hq => h s hs q hq
  have ⟨hw, _, hb⟩ := hi hn
  have only {p a s : String} (h : ∀ q ∈ tangled.states.toList, newLabel chain q = p →
      (tangled.next q a).isSome → ¬s < q) (q t : String) (hq : newLabel chain q = p)
      (ht : tangled.next q a = some t) : ¬s < q :=
    h q (hv.source_mem ht) hq (ht ▸ rfl)
  refine ⟨hv, hr, ⟨e, he, ?_, ?_⟩, e', he', hs'.start.trans (by decide +kernel), hw, ?_⟩
  · exact (hs.next ..).mpr ⟨"C", "D", ⟨by decide +kernel, ⟨"D", by decide +kernel⟩,
      only (by decide +kernel)⟩, by decide +kernel, by decide +kernel⟩
  · exact (hs.next ..).mpr ⟨"B", "A", ⟨by decide +kernel, ⟨"A", by decide +kernel⟩,
      only (by decide +kernel)⟩, by decide +kernel, by decide +kernel⟩
  · have h : ∀ s ∈ tangled.states.toList,
        newLabel (.ofList [("B", "A"), ("C", "B"), ("A", "C")]) (newLabel cycle s) = s := by
      decide +kernel
    exact hb _ fun s hs => h s hs

end RightLinear.DFA
