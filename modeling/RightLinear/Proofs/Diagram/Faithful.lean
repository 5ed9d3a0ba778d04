import RightLinear.Proofs.DFA.Run
import RightLinear.Proofs.Diagram.Drawing
import RightLinear.Proofs.Label
import RightLinear.Proofs.NFA.Path

namespace RightLinear.Diagram

namespace Call

def isNode : Call → Bool
  | node .. => true
  | edge .. => false

def leaves (tail : String) : Call → Bool
  | node ..       => false
  | edge tail' .. => tail' = tail

def joins (tail head : String) : Call → Bool
  | node ..             => false
  | edge tail' head' .. => tail' = tail ∧ head' = head

end Call

-- `R s a t` says that there is a transition from `s` to `t` by `a`.
structure Faithful (m : Automaton String) (R : String → String → String → Prop)
    (calls : List Call) : Prop where
  nodes   : calls.filter Call.isNode = entry :: m.states.toList.mapIdx fun k s =>
    .node (identifier k) (some s) (if s ∈ m.accepting then doubleCircle else ∅)
  start   : ∀ s, m.start = some s → ∃ k, m.states.toList[k]? = some s ∧
    calls.filter (Call.leaves entryName) =
      [.edge entryName (identifier k) none (.ofList [("penwidth", "2")])]
  noStart : m.start = none → calls.filter (Call.leaves entryName) = []
  edges   : ∀ i j s t, m.states.toList[i]? = some s → m.states.toList[j]? = some t →
    ∃ symbols : Labels, (∀ a, a ∈ symbols ↔ R s a t) ∧
      calls.filter (Call.joins (identifier i) (identifier j)) =
        if symbols = ∅ then []
        else [.edge (identifier i) (identifier j) (some (", ".intercalate symbols.toList))
          (if s = t then loopPorts else ∅)]
  ends    : ∀ c ∈ calls, c.isNode = true ∨ c.leaves entryName = true ∨
    ∃ i j, i < m.states.size ∧ j < m.states.size ∧ c.joins (identifier i) (identifier j) = true

variable {m : Automaton String} {kind : Kind} {arrows : List (Arrow String)}
  {R : String → String → String → Prop} {states : List String} {p : String × String}
  {s t : String} {i j : Nat}

theorem identifier_injective (h : identifier i = identifier j) : i = j :=
  toString_nat_injective ((String.append_right_inj "q").mp h)

theorem entryName_ne_identifier : entryName ≠ identifier i := by
  intro h
  have hc : "__start__".toList.head? = ("q" ++ toString i).toList.head? :=
    congrArg (·.toList.head?) h
  simp at hc

theorem idxOf_of_getElem? (hn : states.Nodup) (hs : states[i]? = some s) : states.idxOf s = i := by
  obtain ⟨hi, rfl⟩ := List.getElem?_eq_some_iff.mp hs
  exact hn.idxOf_getElem i hi

theorem idxOf_eq_iff (hn : states.Nodup) (hs : s ∈ states) (ht : states[i]? = some t) :
    states.idxOf s = i ↔ s = t := by
  constructor
  case mp  =>
    rintro rfl
    exact Option.some.inj ((List.getElem?_idxOf hs).symm.trans ht)
  case mpr => exact fun he => he ▸ idxOf_of_getElem? hn ht

theorem joins_edgeCall_iff : (edgeCall states arrows p).joins (identifier i) (identifier j) = true ↔
    states.idxOf p.1 = i ∧ states.idxOf p.2 = j := by
  have he {i j : Nat} : identifier i = identifier j ↔ i = j :=
    ⟨identifier_injective, congrArg identifier⟩
  simp only [Call.joins, edgeCall, decide_eq_true_eq, he]

section

variable (hw : m.WellFormed kind arrows) (hs : arrows.Pairwise (· < ·))
include hw hs

theorem filter_isNode : (draw m (.ofList arrows)).filter Call.isNode =
    entry :: m.states.toList.map (nodeCall m.accepting m.states.toList) := by
  rw [draw_eq hw hs]
  simp [List.filter_cons, List.filter_append, List.filter_map, Function.comp_def, entry, nodeCall,
    startCall, edgeCall, Call.isNode]

theorem filter_leaves : (draw m (.ofList arrows)).filter (Call.leaves entryName) =
    m.start.toList.map (startCall m.states.toList) := by
  have he {i : Nat} : identifier i ≠ entryName := entryName_ne_identifier.symm
  rw [draw_eq hw hs]
  simp [List.filter_append, List.filter_map, Function.comp_def, entry, nodeCall, startCall,
    edgeCall, Call.leaves, he]

theorem filter_joins (hi : m.states.toList[i]? = some s) (hj : m.states.toList[j]? = some t) :
    (draw m (.ofList arrows)).filter (Call.joins (identifier i) (identifier j)) =
      if (s, t) ∈ arrows.map ends then [edgeCall m.states.toList arrows (s, t)] else [] := by
  have joins : ∀ p ∈ (arrows.map ends).eraseDups,
      (edgeCall m.states.toList arrows p).joins (identifier i) (identifier j) =
        decide (p = (s, t)) := by
    intro p hp
    obtain ⟨r, hr, rfl⟩ := List.mem_map.mp (List.mem_eraseDups.mp hp)
    rw [Bool.eq_iff_iff, joins_edgeCall_iff, decide_eq_true_eq, Prod.ext_iff, ends,
      idxOf_eq_iff m.states.nodup_toList (hw.source_mem r hr) hi,
      idxOf_eq_iff m.states.nodup_toList (hw.target_mem r hr) hj]
  have he : entryName ≠ identifier i := entryName_ne_identifier
  have edges : ((arrows.map ends).eraseDups.map (edgeCall m.states.toList arrows)).filter
      (Call.joins (identifier i) (identifier j)) =
        if (s, t) ∈ arrows.map ends then [edgeCall m.states.toList arrows (s, t)] else [] := by
    rw [List.filter_map, Function.comp_def, List.filter_congr joins, List.filter_eq,
      (Automaton.nodup_eraseDups _).count]
    simp only [List.mem_eraseDups]
    split <;> simp
  rw [draw_eq hw hs, List.filter_append, edges]
  simp [List.filter_append, List.filter_map, Function.comp_def, entry, nodeCall, startCall,
    Call.joins, he]

theorem faithful_draw (hR : ∀ r : Arrow String, R r.source r.symbol r.target ↔ r ∈ arrows) :
    Faithful m R (draw m (.ofList arrows)) where
  nodes   := by
    rw [filter_isNode hw hs]
    congr 1
    refine List.ext_getElem (by simp) fun k hk _ => ?_
    simp [nodeCall, m.states.nodup_toList.idxOf_getElem]
  start   := by
    intro s h
    refine ⟨m.states.toList.idxOf s, List.getElem?_idxOf (hw.start_mem s h), ?_⟩
    simp [filter_leaves hw hs, h, startCall]
  noStart := by
    intro h
    simp [filter_leaves hw hs, h]
  edges   := by
    intro i j s t hi hj
    refine ⟨⟨between arrows (s, t), sorted_between hs⟩, fun a => ?symbols, ?edge⟩
    case symbols => exact mem_between_iff.trans (hR ⟨s, a, t⟩).symm
    case edge    =>
      have he : (⟨between arrows (s, t), sorted_between hs⟩ : Labels) = ∅ ↔
          (s, t) ∉ arrows.map ends := by
        rw [← between_eq_nil_iff, ← SortedSet.isEmpty_iff, SortedSet.isEmpty, List.isEmpty_iff]
      have hn : m.states.toList.Nodup := m.states.nodup_toList
      rw [filter_joins hw hs hi hj, edgeCall, idxOf_of_getElem? hn hi, idxOf_of_getElem? hn hj]
      simp only [he, ite_not]
  ends    := by
    rw [draw_eq hw hs]
    simp only [List.forall_mem_append, List.forall_mem_cons, List.forall_mem_map,
      List.mem_eraseDups]
    refine ⟨⟨⟨.inl rfl, fun _ _ => .inl rfl⟩, fun _ _ => .inr (.inl ?start)⟩,
      fun r hr => .inr (.inr ?edge)⟩
    case start => simp [startCall, Call.leaves]
    case edge  =>
      exact ⟨_, _, List.idxOf_lt_length_of_mem (hw.source_mem r hr),
        List.idxOf_lt_length_of_mem (hw.target_mem r hr), joins_edgeCall_iff.mpr ⟨rfl, rfl⟩⟩

end

theorem draw_faithful :
    (∀ n : NFA, n.Valid → Faithful n.toAutomaton (fun s a t => t ∈ n.targets s a) n.draw ∧
      ∀ quote, n.diagram.statements.map (Statement.render quote) = n.draw.map (Call.text quote)) ∧
    ∀ d : DFA String, d.Valid → Faithful d.toAutomaton (fun s a t => d.next s a = some t) d.draw ∧
      ∀ quote, d.diagram.statements.map (Statement.render quote) = d.draw.map (Call.text quote) := by
  constructor
  case left  =>
    intro n hv
    exact ⟨faithful_draw hv n.sorted_arrows fun _ => NFA.mem_arrows_iff.symm,
      fun _ => map_render_eq hv n.sorted_arrows⟩
  case right =>
    intro d hv
    exact ⟨faithful_draw hv d.sorted_arrows fun _ => DFA.mem_arrows_iff.symm,
      fun _ => map_render_eq hv d.sorted_arrows⟩

-- Three transitions between the same states.
def bundled : NFA :=
  let bare := { NFA.empty with alphabet := ["a", "b"] }
  let arrows : List (Arrow String) :=
    [⟨"S", epsilon, "A"⟩, ⟨"S", "b", "A"⟩, ⟨"S", "a", "A"⟩, ⟨"A", "a", "A"⟩]
  arrows.foldl (fun n r => n.link r.source r.symbol r.target)
    ((bare.setStart "S").addAccepting "A")

def startless : DFA String where
  states      := .ofList ["", "x"]
  alphabet    := ["a"]
  start       := none
  accepting   := .singleton ""
  transitions := .ofArrows [⟨"x", "a", ""⟩]

theorem draw_faithful_bundled : bundled.Valid ∧ startless.Valid ∧
    bundled.draw.filter (Call.joins "q1" "q0") = [.edge "q1" "q0" (some "a, b, ε") ∅] ∧
    startless.draw.filter Call.isNode =
      [entry, .node "q0" (some "") doubleCircle, .node "q1" (some "x") ∅] ∧
    startless.draw.filter (Call.leaves entryName) = [] := by
  have ⟨pictureNFA, pictureDFA⟩ := draw_faithful
  have hn : bundled.Valid := by decide +kernel
  have hd : startless.Valid := by decide +kernel
  have ⟨symbols, hs, edges⟩ := (pictureNFA bundled hn).left.edges 1 0 "S" "A"
    (by decide +kernel) (by decide +kernel)
  have ha : bundled.arrows = [⟨"A", "a", "A"⟩, ⟨"S", "a", "A"⟩, ⟨"S", "b", "A"⟩,
      ⟨"S", epsilon, "A"⟩] := by decide +kernel
  have he : symbols = .ofList ["a", "b", epsilon] := by
    ext a
    rw [hs, ← NFA.mem_arrows_iff (r := ⟨"S", a, "A"⟩), ha]
    simp
  have hl : ", ".intercalate (SortedSet.ofList ["a", "b", epsilon]).toList = "a, b, ε" := by
    decide +kernel
  rw [he, if_neg (by decide +kernel), hl] at edges
  exact ⟨hn, hd, edges, (pictureDFA startless hd).left.nodes,
    (pictureDFA startless hd).left.noStart rfl⟩

end RightLinear.Diagram
