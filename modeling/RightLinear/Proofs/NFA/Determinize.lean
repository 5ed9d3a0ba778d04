import Mathlib.Data.List.Sublists
import RightLinear.Proofs.DFA.Run
import RightLinear.Proofs.NFA.Names
import RightLinear.Proofs.NFA.Path
import RightLinear.Proofs.Table

namespace RightLinear.NFA

variable {n : NFA} {first S T : Labels} {s a : String} {w : List String}

inductive Reached (n : NFA) (first : Labels) : Labels → Prop
  | first : Reached n first first
  | move {S : Labels} {a : String} (h : Reached n first S) (ha : a ∈ n.alphabet)
    (hm : n.move S a ≠ ∅) : Reached n first (n.move S a)

theorem mem_successors_iff :
    T ∈ n.successors S ↔ ∃ a ∈ n.alphabet, n.move S a ≠ ∅ ∧ n.move S a = T := by
  simp only [successors, List.mem_filter, List.mem_map, Bool.not_eq_true',
    ← Bool.not_eq_true, SortedSet.isEmpty_iff]
  constructor
  case mp =>
    rintro ⟨⟨a, ha, rfl⟩, hm⟩
    exact ⟨a, ha, hm, rfl⟩
  case mpr =>
    rintro ⟨a, ha, hm, rfl⟩
    exact ⟨⟨a, ha, rfl⟩, hm⟩

theorem leads_successors_iff : Search.Leads n.successors first S ↔ n.Reached first S := by
  constructor
  case mp =>
    intro h
    induction h
    case refl => exact .first
    case tail hs hi =>
      have ⟨a, ha, hm, he⟩ := mem_successors_iff.mp hs
      exact he ▸ hi.move ha hm
  case mpr =>
    intro h
    induction h
    case first         => exact .refl
    case move ha hm hi => exact .tail hi (mem_successors_iff.mpr ⟨_, ha, hm, rfl⟩)

theorem Reached.ne_empty (h : n.Reached first S) (hf : first ≠ ∅) : S ≠ ∅ := by
  cases h
  case first      => exact hf
  case move hm    => exact hm

theorem Reached.reach (h : n.Reached first S) (hw : ∀ a ∈ w, a ∈ n.alphabet)
    (hr : n.reach S w ≠ ∅) : n.Reached first (n.reach S w) := by
  induction w generalizing S
  case nil => exact h
  case cons a w hi =>
    have ⟨ha, hw⟩ := List.forall_mem_cons.mp hw
    have hm : n.move S a ≠ ∅ := fun hm => hr (by
      show n.reach (n.move S a) w = ∅
      rw [hm, reach_empty])
    exact hi (h.move ha hm) hw hr

theorem Reached.exists_reach (h : n.Reached first S) :
    ∃ w, (∀ a ∈ w, a ∈ n.alphabet) ∧ n.reach first w = S := by
  induction h
  case first => exact ⟨[], by simp, rfl⟩
  case move a _ ha _ hi =>
    have ⟨w, hw, hr⟩ := hi
    refine ⟨w ++ [a], ?_, by simp [NFA.reach, ← hr]⟩
    simpa [or_imp, forall_and] using ⟨hw, ha⟩

namespace Valid

theorem closure_sub (hv : n.Valid) (hS : ∀ t ∈ S, t ∈ n.states) :
    ∀ t ∈ n.closure S, t ∈ n.states := by
  intro t ht
  have ⟨s, hs, h⟩ := mem_closure_iff.mp ht
  exact hv.path_mem (path_nil_iff.mpr h) (hS s hs)

theorem closure_start_sub (hv : n.Valid) (hs : n.start = some s) :
    ∀ t ∈ n.closure (.singleton s), t ∈ n.states :=
  hv.closure_sub fun _ ht => SortedSet.mem_singleton.mp ht ▸ hv.start_mem s hs

theorem move_sub (hv : n.Valid) : ∀ t ∈ n.move S a, t ∈ n.states := by
  intro t ht
  have ⟨s, _, r, hr, h⟩ := mem_move_iff.mp ht
  exact hv.path_mem (path_nil_iff.mpr h) (hv.target_mem hr)

theorem reached_sub (hv : n.Valid) (hf : ∀ t ∈ first, t ∈ n.states) (h : n.Reached first S) :
    ∀ t ∈ S, t ∈ n.states := by
  cases h
  case first   => exact hf
  case move hm => exact hv.move_sub

-- The bound on the search is the number of all sets of states.
theorem mem_subsets_iff (hv : n.Valid) (hf : ∀ t ∈ first, t ∈ n.states) :
    S ∈ n.subsets first ↔ n.Reached first S := by
  let subsets := n.states.toList.sublists.map SortedSet.ofList
  have mem {S : Labels} (hS : ∀ t ∈ S, t ∈ n.states) : S ∈ subsets := by
    refine List.mem_map.mpr ⟨n.states.toList.filter (· ∈ S), ?_, ?_⟩
    · exact List.mem_sublists.mpr List.filter_sublist
    · ext t
      simpa using hS t
  have closed : ∀ S ∈ subsets, ∀ T ∈ n.successors S, T ∈ subsets := by
    intro S _ T hT
    have ⟨a, _, _, he⟩ := mem_successors_iff.mp hT
    exact he ▸ mem hv.move_sub
  have seeds : ∀ S ∈ [first], S ∈ subsets := by simpa using mem hf
  have bound : subsets.length ≤ Nat.pow 2 n.states.size := by
    simp [subsets, SortedSet.size]
  rw [NFA.subsets, Search.mem_explore_iff closed seeds bound]
  simp [leads_successors_iff]

end Valid

-- A DFA with one state for each reached set, called by a name, that moves as the sets do.
structure Determinized (n : NFA) (first : Labels) (name : Labels → String) (d : DFA String) :
    Prop where
  valid     : d.Valid
  alphabet  : d.alphabet = n.alphabet
  start     : d.start = some (name first)
  bijOn     : Set.BijOn name {S | n.Reached first S} {q | q ∈ d.states}
  accepting : ∀ S, n.Reached first S → (name S ∈ d.accepting ↔ ∃ q ∈ S, q ∈ n.accepting)
  next      : ∀ S, n.Reached first S → ∀ a ∈ n.alphabet,
    d.next (name S) a = if n.move S a = ∅ then none else some (name (n.move S a))
  keys      : ∀ q ∈ d.transitions.keys, q ∈ d.states

namespace Determinized

variable {d : DFA String} {name : Labels → String}

-- A set that has become empty has no state; the run has ended before.
theorem run_eq (hd : n.Determinized first name d) (hf : first ≠ ∅) (hS : n.Reached first S)
    (hw : ∀ a ∈ w, a ∈ n.alphabet) : d.run (some (name S)) w =
      if n.reach S w = ∅ then none else some (name (n.reach S w)) := by
  induction w generalizing S
  case nil => simp [reach, hS.ne_empty hf]
  case cons a w hi =>
    obtain ⟨ha, hw⟩ := List.forall_mem_cons.mp hw
    have hr : n.reach S (a :: w) = n.reach (n.move S a) w := rfl
    rw [DFA.run_cons, Option.bind_some, hd.next S hS a ha, hr]
    by_cases hm : n.move S a = ∅
    case pos => simp [hm, reach_empty]
    case neg => simpa [hm] using hi (hS.move ha hm) hw

-- If the names are apart, the DFA has one state for each reached set and moves as they do.
theorem accepts_eq (hd : n.Determinized first name d) (hf : first ≠ ∅)
    (hw : ∀ a ∈ w, a ∈ n.alphabet) : d.accepts w = (n.reach first w).meets n.accepting := by
  rw [Bool.eq_iff_iff, DFA.accepts_iff, hd.start, hd.run_eq hf .first hw, SortedSet.meets_iff]
  by_cases hr : n.reach first w = ∅
  case pos => simp [hr]
  case neg => simpa [hr] using hd.accepting _ (Reached.first.reach hw hr)

theorem exists_run (hd : n.Determinized first name d) (hf : first ≠ ∅) {q : String}
    (hq : q ∈ d.states) : ∃ w, (∀ a ∈ w, a ∈ d.alphabet) ∧ d.run d.start w = some q := by
  have ⟨S, (hS : n.Reached first S), he⟩ := hd.bijOn.surjOn hq
  have ⟨w, hw, hr⟩ := hS.exists_reach
  refine ⟨w, hd.alphabet ▸ hw, ?_⟩
  rw [hd.start, hd.run_eq hf .first hw, hr, if_neg (hS.ne_empty hf), he]

end Determinized

-- The names that the subset construction gives.
def names (n : NFA) (first : Labels) : Labels → String :=
  nameOf (nameSets [] (n.subsets first))

def subsetDFA (n : NFA) (first : Labels) : DFA String :=
  let named := nameSets [] (n.subsets first)
  { states := .ofList (named.map (·.2))
    alphabet := n.alphabet
    start := some (nameOf named first)
    accepting := .ofList ((named.filter (·.1.meets n.accepting)).map (·.2))
    transitions := .ofArrows (n.subsetArrows named) }

theorem toDFA_eq (hs : n.start = some s) :
    n.toDFA = .ok (n.subsetDFA (n.closure (.singleton s))) := by
  rw [toDFA, hs]
  rfl

theorem nameSets_subsets :
    nameSets [] (n.subsets first) = (n.subsets first).map fun S => (S, n.names first S) :=
  nameSets_eq_map Search.explore_nodup

theorem mem_nameSets_iff {p : Labels × String} : p ∈ nameSets [] (n.subsets first) ↔
    p.1 ∈ n.subsets first ∧ n.names first p.1 = p.2 := by
  rw [nameSets_subsets, List.mem_map]
  constructor
  case mp =>
    rintro ⟨S, hS, rfl⟩
    exact ⟨hS, rfl⟩
  case mpr => exact fun ⟨hS, he⟩ => ⟨p.1, hS, Prod.ext rfl he⟩

theorem mem_states_subsetDFA {q : String} :
    q ∈ (n.subsetDFA first).states ↔ ∃ S ∈ n.subsets first, n.names first S = q := by
  simp [subsetDFA, nameSets_subsets]

theorem mem_accepting_subsetDFA {q : String} : q ∈ (n.subsetDFA first).accepting ↔
    ∃ S ∈ n.subsets first, (∃ q ∈ S, q ∈ n.accepting) ∧ n.names first S = q := by
  simp [subsetDFA, nameSets_subsets, List.filter_map, SortedSet.meets_iff, and_assoc]

theorem mem_subsetArrows_iff {r : Arrow String} :
    r ∈ n.subsetArrows (nameSets [] (n.subsets first)) ↔
      ∃ S ∈ n.subsets first, r.symbol ∈ n.alphabet ∧ n.move S r.symbol ≠ ∅ ∧
        n.names first S = r.source ∧ n.names first (n.move S r.symbol) = r.target := by
  simp only [subsetArrows, List.mem_flatMap, List.mem_filterMap, mem_nameSets_iff]
  constructor
  case mp =>
    rintro ⟨⟨S, name⟩, ⟨hS, hs⟩, a, ha, h⟩
    by_cases hm : n.move S a = ∅
    case pos => simp [SortedSet.isEmpty_iff.mpr hm] at h
    case neg =>
      simp only [SortedSet.isEmpty_iff, hm, if_false, Option.some.injEq] at h
      subst h
      exact ⟨S, hS, ha, hm, hs, rfl⟩
  case mpr =>
    rintro ⟨S, hS, ha, hm, hs, ht⟩
    refine ⟨(S, n.names first S), ⟨hS, rfl⟩, r.symbol, ha, ?_⟩
    simp only [SortedSet.isEmpty_iff, hm, if_false, Option.some.injEq]
    rw [hs, show nameOf (nameSets [] (n.subsets first)) (n.move S r.symbol) = r.target from ht]

theorem noStrayRow_subsetDFA : (n.subsetDFA first).NoStrayRow := by
  intro q hq
  have ⟨r, hr, he⟩ := Table.mem_keys_ofArrows.mp hq
  have ⟨S, hS, _, _, hs, _⟩ := mem_subsetArrows_iff.mp hr
  exact mem_states_subsetDFA.mpr ⟨S, hS, hs.trans he⟩

theorem exists_of_next_subsetDFA {q t : String} (h : (n.subsetDFA first).next q a = some t) :
    ∃ S ∈ n.subsets first, a ∈ n.alphabet ∧ n.move S a ≠ ∅ ∧ n.names first S = q ∧
      n.names first (n.move S a) = t :=
  mem_subsetArrows_iff.mp (Table.mem_of_next_ofArrows h)

-- If the names are apart, two arrows with one source come from one set.
theorem next_subsetDFA_iff {q t : String}
    (hi : Set.InjOn (n.names first) {S | S ∈ n.subsets first}) :
    (n.subsetDFA first).next q a = some t ↔ ∃ S ∈ n.subsets first, a ∈ n.alphabet ∧
      n.move S a ≠ ∅ ∧ n.names first S = q ∧ n.names first (n.move S a) = t := by
  have hf : ∀ r ∈ n.subsetArrows (nameSets [] (n.subsets first)),
      ∀ r' ∈ n.subsetArrows (nameSets [] (n.subsets first)),
      r.source = r'.source → r.symbol = r'.symbol → r.target = r'.target := by
    intro r hr r' hr' hs ha
    have ⟨S, hS, _, _, hsrc, htgt⟩ := mem_subsetArrows_iff.mp hr
    have ⟨S', hS', _, _, hsrc', htgt'⟩ := mem_subsetArrows_iff.mp hr'
    have he : S = S' := hi hS hS' (by rw [hsrc, hsrc', hs])
    rw [← htgt, ← htgt', he, ha]
  exact (Table.next_ofArrows_iff hf).trans mem_subsetArrows_iff

namespace Valid

variable (hv : n.Valid) (hf : ∀ t ∈ first, t ∈ n.states)
  (hi : Set.InjOn (n.names first) {S | n.Reached first S})
include hv hf

theorem names_mem_states (hS : n.Reached first S) : n.names first S ∈ (n.subsetDFA first).states :=
  mem_states_subsetDFA.mpr ⟨S, (hv.mem_subsets_iff hf).mpr hS, rfl⟩

-- Two sets may have one name; then their arrows are those of one state.
theorem valid_subsetDFA : (n.subsetDFA first).Valid := by
  apply DFA.Valid.of_next hv.alphabet_nodup hv.epsilon_not_mem
  case hs =>
    intro q hq
    exact Option.some.inj hq ▸ hv.names_mem_states hf .first
  case ha =>
    intro q hq
    have ⟨S, hS, _, he⟩ := mem_accepting_subsetDFA.mp hq
    exact mem_states_subsetDFA.mpr ⟨S, hS, he⟩
  case ht =>
    intro q a t h
    have ⟨S, hS, ha, hm, hq, ht⟩ := exists_of_next_subsetDFA h
    have hR : n.Reached first S := (hv.mem_subsets_iff hf).mp hS
    exact ⟨hq ▸ hv.names_mem_states hf hR, ha, ht ▸ hv.names_mem_states hf (hR.move ha hm)⟩

include hi

theorem names_mem_accepting_iff (hS : n.Reached first S) :
    n.names first S ∈ (n.subsetDFA first).accepting ↔ ∃ q ∈ S, q ∈ n.accepting := by
  rw [mem_accepting_subsetDFA]
  constructor
  case mpr => exact fun hm => ⟨S, (hv.mem_subsets_iff hf).mpr hS, hm, rfl⟩
  case mp =>
    rintro ⟨T, hT, hm, he⟩
    exact hi ((hv.mem_subsets_iff hf).mp hT) hS he ▸ hm

theorem next_iff {q t : String} : (n.subsetDFA first).next q a = some t ↔
    ∃ S, n.Reached first S ∧ a ∈ n.alphabet ∧ n.move S a ≠ ∅ ∧ n.names first S = q ∧
      n.names first (n.move S a) = t := by
  have hi' : Set.InjOn (n.names first) {S | S ∈ n.subsets first} := by
    simpa only [hv.mem_subsets_iff hf]
  simp only [next_subsetDFA_iff hi', hv.mem_subsets_iff hf]

theorem next_names (hS : n.Reached first S) (ha : a ∈ n.alphabet) :
    (n.subsetDFA first).next (n.names first S) a =
      if n.move S a = ∅ then none else some (n.names first (n.move S a)) := by
  apply Option.ext
  intro t
  rw [hv.next_iff hf hi]
  constructor
  case mp =>
    rintro ⟨T, hT, _, hm, he, ht⟩
    have hTS := hi hT hS he
    rw [← hTS, if_neg hm, ht]
  case mpr =>
    intro ht
    by_cases hm : n.move S a = ∅
    case pos => simp [hm] at ht
    case neg =>
      rw [if_neg hm, Option.some.injEq] at ht
      exact ⟨S, hS, ha, hm, rfl, ht⟩

theorem determinized : n.Determinized first (n.names first) (n.subsetDFA first) where
  valid             := hv.valid_subsetDFA hf
  alphabet          := rfl
  start             := rfl
  accepting _ hS    := hv.names_mem_accepting_iff hf hi hS
  next _ hS _ ha    := hv.next_names hf hi hS ha
  bijOn             := by
    refine ⟨fun _ hS => hv.names_mem_states hf hS, hi, fun q hq => ?_⟩
    have ⟨S, hS, he⟩ := mem_states_subsetDFA.mp hq
    exact ⟨S, (hv.mem_subsets_iff hf).mp hS, he⟩
  keys              := noStrayRow_subsetDFA

end Valid

-- The labels have none of the signs that braced names are made of.
def Plain (n : NFA) : Prop :=
  ∀ q ∈ n.states.toList, ∀ c ∈ ['{', '}', ','], c ∉ q.toList

instance : Decidable n.Plain :=
  have (q : String) : Decidable (∀ c ∈ ['{', '}', ','], c ∉ q.toList) := List.decidableBAll _ _
  List.decidableBAll _ _

theorem Valid.separated_of_plain {rest : List Labels} (hv : n.Valid) (hl : n.Plain)
    (hf : ∀ t ∈ first, t ∈ n.states) (hne : first ≠ ∅) (hs : n.subsets first = first :: rest) :
    Separated first rest := by
  have reached {S : Labels} (h : S ∈ first :: rest) : n.Reached first S :=
    (hv.mem_subsets_iff hf).mp (hs ▸ h)
  have plain {S : Labels} (h : S ∈ first :: rest) {c : Char} (hc : c ∈ ['{', '}', ',']) :
      ∀ q ∈ S.toList, c ∉ q.toList :=
    fun q hq => hl q (hv.reached_sub hf (reached h) q hq) c hc
  have ne_nil {S : Labels} (h : S ∈ first :: rest) : S.toList ≠ [] :=
    SortedSet.toList_ne_nil ((reached h).ne_empty hne)
  refine ⟨hs ▸ Search.explore_nodup, ?_, ?_⟩
  case refine_1 =>
    rintro S ⟨hS, _⟩ T hT he
    have hb : '{' ∈ (String.join T.toList).toList := by
      simp [← he, toList_braced (ne_nil (.tail _ hS))]
    have ⟨q, hq, hm⟩ := List.mem_flatMap.mp (String.toList_join ▸ hb)
    exact plain hT (by simp) q hq hm
  case refine_2 =>
    rintro S T ⟨hS, _⟩ ⟨hT, _⟩ he
    have hl := RightLinear.braced_inj (ne_nil (.tail _ hS)) (ne_nil (.tail _ hT))
      (plain (.tail _ hS) (by simp)) (plain (.tail _ hT) (by simp)) he
    ext q
    rw [← SortedSet.mem_toList, hl, SortedSet.mem_toList]

theorem closure_singleton_ne_empty : n.closure (.singleton s) ≠ ∅ := by
  intro h
  have hs : s ∈ n.closure (.singleton s) :=
    mem_closure_iff.mpr ⟨s, SortedSet.mem_singleton.mpr rfl, .refl⟩
  simp [h] at hs

theorem Valid.names_injOn {rest : List Labels} (hv : n.Valid) (hf : ∀ t ∈ first, t ∈ n.states)
    (hs : n.subsets first = first :: rest) (hsep : Separated first rest) :
    Set.InjOn (n.names first) {S | n.Reached first S} := by
  have hi := nameOf_injOn hsep
  rw [← hs] at hi
  simp only [hv.mem_subsets_iff hf] at hi
  exact hi

-- The names of all reached sets are apart if those of the sets that the search lists are.
theorem Valid.toDFA_determinized (hv : n.Valid) (hs : n.start = some s)
    (hsep : ∀ rest, n.subsets (n.closure (.singleton s)) = n.closure (.singleton s) :: rest →
      Separated (n.closure (.singleton s)) rest) :
    ∃ d, n.toDFA = .ok d ∧
      n.Determinized (n.closure (.singleton s)) (n.names (n.closure (.singleton s))) d := by
  have hf := hv.closure_start_sub hs
  obtain ⟨rest, he⟩ : ∃ rest, n.subsets (n.closure (.singleton s)) = _ :: rest :=
    Search.explore_singleton
  exact ⟨_, toDFA_eq hs, hv.determinized hf (hv.names_injOn hf he (hsep rest he))⟩

theorem exists_of_toDFA_eq_ok {d : DFA String} (h : n.toDFA = .ok d) :
    ∃ s, n.start = some s ∧ n.subsetDFA (n.closure (.singleton s)) = d := by
  cases hs : n.start
  case none   => simp [toDFA, hs] at h
  case some s => exact ⟨s, rfl, Except.ok.inj ((toDFA_eq hs).symm.trans h)⟩

theorem Valid.of_toDFA {d : DFA String} (hv : n.Valid) (h : n.toDFA = .ok d) : d.Valid := by
  have ⟨s, hs, he⟩ := exists_of_toDFA_eq_ok h
  exact he ▸ hv.valid_subsetDFA (hv.closure_start_sub hs)

theorem noStrayRow_of_toDFA {d : DFA String} (h : n.toDFA = .ok d) : d.NoStrayRow := by
  have ⟨s, _, he⟩ := exists_of_toDFA_eq_ok h
  exact he ▸ noStrayRow_subsetDFA

theorem accepts_eq_meets (hs : n.start = some s) :
    n.accepts w = (n.reach (n.closure (.singleton s)) w).meets n.accepting := by
  rw [accepts, hs]

theorem toDFA_exact (hv : n.Valid) (hs : n.start = some s) (hl : n.Plain) :
    ∃ d name, n.toDFA = .ok d ∧ n.Determinized (n.closure (.singleton s)) name d ∧
      (∀ w, (∀ a ∈ w, a ∈ n.alphabet) → d.accepts w = n.accepts w) ∧
      ∀ q ∈ d.states, ∃ w, (∀ a ∈ w, a ∈ d.alphabet) ∧ d.run d.start w = some q := by
  have hf := hv.closure_start_sub hs
  have hne : n.closure (.singleton s) ≠ ∅ := closure_singleton_ne_empty
  have ⟨d, h, hd⟩ := hv.toDFA_determinized hs fun _ => hv.separated_of_plain hl hf hne
  refine ⟨d, _, h, hd, fun w hw => ?_, fun q => hd.exists_run hne⟩
  rw [hd.accepts_eq hne hw, accepts_eq_meets hs]

-- The sets of AB and of A and B, both of them reached, are written together alike.
def clashing : NFA :=
  let bare := { NFA.empty with alphabet := ["a", "b"] }
  let arrows : List (Arrow String) :=
    [⟨"S", "a", "AB"⟩, ⟨"S", "b", "A"⟩, ⟨"A", epsilon, "B"⟩, ⟨"AB", "a", "S"⟩]
  arrows.foldl (fun n r => n.link r.source r.symbol r.target)
    ((bare.setStart "S").addAccepting "B")

theorem toDFA_exact_clashing : clashing.Valid ∧ clashing.start = some "S" ∧ clashing.Plain ∧
    ∃ d name, clashing.toDFA = .ok d ∧
      clashing.Determinized (clashing.closure (.singleton "S")) name d ∧
      (∀ w, (∀ a ∈ w, a ∈ clashing.alphabet) → d.accepts w = clashing.accepts w) ∧
      ∀ q ∈ d.states, ∃ w, (∀ a ∈ w, a ∈ d.alphabet) ∧ d.run d.start w = some q := by
  have hv : clashing.Valid := by decide +kernel
  have hl : clashing.Plain := by decide +kernel
  exact ⟨hv, rfl, hl, toDFA_exact hv rfl hl⟩

end RightLinear.NFA
