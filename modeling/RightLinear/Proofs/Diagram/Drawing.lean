import Mathlib.Data.List.Basic
import Mathlib.Data.List.Induction
import Mathlib.Data.List.Nodup
import RightLinear.Diagram.Drawing
import RightLinear.Proofs.Automaton
import RightLinear.Proofs.Table

namespace RightLinear

namespace Arrow

variable {r r' : Arrow String}

theorem lt_iff : r < r' ↔ r.source < r'.source ∨ r.source = r'.source ∧
    (r.symbol < r'.symbol ∨ r.symbol = r'.symbol ∧ r.target < r'.target) := by
  change r.parts < r'.parts ↔ _
  simp [parts, List.cons_lt_cons_iff]

theorem symbol_lt (h : r < r') (hs : r.source = r'.source) (ht : r.target = r'.target) :
    r.symbol < r'.symbol := by
  cases lt_iff.mp h
  case inl h => exact absurd h (hs ▸ Key.irrefl _)
  case inr h => exact h.right.resolve_right fun h => absurd h.right (ht ▸ Key.irrefl _)

end Arrow

theorem NFA.sorted_arrows (n : NFA) : n.arrows.Pairwise (· < ·) := by
  refine List.pairwise_flatMap.mpr ⟨fun (s, row) _ => ?row, n.transitions.sorted.imp ?sources⟩
  case sources =>
    intro e e' he r hr r' hr'
    simp only [List.mem_flatMap, List.mem_map] at hr hr'
    obtain ⟨_, _, _, _, rfl⟩ := hr
    obtain ⟨_, _, _, _, rfl⟩ := hr'
    exact Arrow.lt_iff.mpr (.inl he)
  case row =>
    refine List.pairwise_flatMap.mpr ⟨fun (a, ts) _ => ?targets, row.sorted.imp ?symbols⟩
    case symbols =>
      intro e e' he r hr r' hr'
      obtain ⟨_, _, rfl⟩ := List.mem_map.mp hr
      obtain ⟨_, _, rfl⟩ := List.mem_map.mp hr'
      exact Arrow.lt_iff.mpr (.inr ⟨rfl, .inl he⟩)
    case targets =>
      refine List.pairwise_map.mpr (ts.sorted.imp ?_)
      exact fun h => Arrow.lt_iff.mpr (.inr ⟨rfl, .inr ⟨rfl, h⟩⟩)

theorem DFA.sorted_arrows (d : DFA String) : d.arrows.Pairwise (· < ·) := by
  refine List.pairwise_flatMap.mpr ⟨fun (s, row) _ => ?row, d.transitions.sorted.imp ?sources⟩
  case sources =>
    intro e e' he r hr r' hr'
    obtain ⟨_, _, rfl⟩ := List.mem_map.mp hr
    obtain ⟨_, _, rfl⟩ := List.mem_map.mp hr'
    exact Arrow.lt_iff.mpr (.inl he)
  case row =>
    refine List.pairwise_map.mpr (row.sorted.imp ?_)
    exact fun h => Arrow.lt_iff.mpr (.inr ⟨rfl, .inl h⟩)

theorem SortedSet.toList_ofList {κ : Type} [Key κ] {l : List κ} (h : l.Pairwise (· < ·)) :
    (ofList l).toList = l := by
  have he : ofList l = ⟨l, h⟩ := by
    ext s
    exact mem_ofList
  rw [he]

namespace Diagram

variable {m : Automaton String} {arrows : List (Arrow String)} {r : Arrow String}
  {ids : Table String String} {done rest : List String} {s : String}
  {quote : String → String}

def ends (r : Arrow String) : String × String :=
  (r.source, r.target)

-- The symbols of the arrows with two given ends.
def between (arrows : List (Arrow String)) (p : String × String) : List String :=
  (arrows.filter fun r => r.source = p.1 ∧ r.target = p.2).map (·.symbol)

theorem mem_between_iff {p : String × String} {a : String} :
    a ∈ between arrows p ↔ ⟨p.1, a, p.2⟩ ∈ arrows := by
  simp only [between, List.mem_map, List.mem_filter, decide_eq_true_eq]
  constructor
  case mp  =>
    rintro ⟨r, ⟨hr, hs, ht⟩, rfl⟩
    exact hs ▸ ht ▸ hr
  case mpr => exact fun h => ⟨_, ⟨h, rfl, rfl⟩, rfl⟩

theorem sorted_between (hs : arrows.Pairwise (· < ·)) {p : String × String} :
    (between arrows p).Pairwise (· < ·) := by
  refine List.pairwise_map.mpr ((hs.filter _).imp_of_mem fun {r r'} hr hr' h => ?_)
  simp only [List.mem_filter, decide_eq_true_eq] at hr hr'
  exact Arrow.symbol_lt h (hr.right.left.trans hr'.right.left.symm)
    (hr.right.right.trans hr'.right.right.symm)

theorem bundles_eq : bundles arrows =
    (arrows.map ends).eraseDups.map fun p => (p.1, p.2, between arrows p) :=
  rfl

theorem between_append_singleton {p : String × String} : between (arrows ++ [r]) p =
    between arrows p ++ if p = ends r then [r.symbol] else [] := by
  have hp : p = ends r ↔ r.source = p.1 ∧ r.target = p.2 := by
    rw [ends, Prod.ext_iff, eq_comm, eq_comm (a := p.2)]
  by_cases h : p = ends r
  case pos => simp [between, h, ends]
  case neg => simp [between, h, hp.not.mp h]

theorem between_eq_nil_iff {p : String × String} :
    between arrows p = [] ↔ p ∉ arrows.map ends := by
  simp [between, ends, List.filter_eq_nil_iff, Prod.ext_iff]

theorem gather_map {ps : List (String × String)} {f : String × String → List String}
    (hn : ps.Nodup) (hf : ends r ∉ ps → f (ends r) = []) :
    Drawing.gather (ps.map fun p => (p, f p)) r =
      (if ends r ∈ ps then ps else ps ++ [ends r]).map fun p =>
        (p, f p ++ if p = ends r then [r.symbol] else []) := by
  induction ps
  case nil => simpa [Drawing.gather, ends] using hf
  case cons p ps hi =>
    have ⟨hp, hn⟩ := List.nodup_cons.mp hn
    rw [List.map_cons, Drawing.gather]
    split
    case isTrue he  =>
      -- the others have other ends
      have ho : ps.map (fun q => (q, f q ++ if q = p then [r.symbol] else [])) =
          ps.map fun q => (q, f q) := by
        refine List.map_congr_left fun q hq => ?_
        have hne : q ≠ p := fun h => hp (h ▸ hq)
        simp [hne]
      change p = ends r at he
      simp [← he, ho]
    case isFalse he =>
      change p ≠ ends r at he
      rw [hi hn fun h => hf (by simp [h, Ne.symm he])]
      by_cases hr : ends r ∈ ps <;> simp [hr, he, Ne.symm he]

theorem eraseDups_append_singleton {α : Type} [BEq α] [LawfulBEq α] {l : List α} {a : α} :
    (l ++ [a]).eraseDups = if a ∈ l then l.eraseDups else l.eraseDups ++ [a] := by
  by_cases h : a ∈ l <;> simp [List.eraseDups_append, List.removeAll, List.eraseDups_cons, h]

theorem foldl_gather : arrows.foldl Drawing.gather [] =
    (arrows.map ends).eraseDups.map fun p => (p, between arrows p) := by
  induction arrows using List.reverseRecOn
  case nil                          => rfl
  case append_singleton arrows r hi =>
    have hf : ends r ∉ (arrows.map ends).eraseDups → between arrows (ends r) = [] := by
      rw [List.mem_eraseDups]
      exact between_eq_nil_iff.mpr
    rw [List.foldl_append, hi, List.foldl_cons, List.foldl_nil,
      gather_map (Automaton.nodup_eraseDups _) hf, List.map_append, List.map_singleton,
      eraseDups_append_singleton]
    simp only [List.mem_eraseDups, between_append_singleton]

-- Identifiers are the places of states in a list.
def nodeCall (accepting : Labels) (states : List String) (s : String) : Call :=
  .node (identifier (states.idxOf s)) (some s) (if s ∈ accepting then doubleCircle else ∅)

def startCall (states : List String) (s : String) : Call :=
  .edge entryName (identifier (states.idxOf s)) none (.ofList [("penwidth", "2")])

def edgeCall (states : List String) (arrows : List (Arrow String)) (p : String × String) : Call :=
  .edge (identifier (states.idxOf p.1)) (identifier (states.idxOf p.2))
    (some (", ".intercalate (between arrows p))) (if p.1 = p.2 then loopPorts else ∅)

-- The states that were asked for are numbered in the order in which that was.
structure Numbered (done : List String) (ids : Table String String) : Prop where
  size  : ids.keys.length = done.length
  find? : ∀ s, ids.find? s = if s ∈ done then some (identifier (done.idxOf s)) else none

theorem run_bind {α β τ : Type} {x : StateM τ α} {f : α → StateM τ β} {a : α} {st st' : τ}
    (h : x.run st = (a, st')) : (x >>= f).run st = (f a).run st' := by
  rw [StateT.run_bind, h]
  rfl

theorem run_mapM {α β τ : Type} {l : List α} {f : α → StateM τ β} {g : α → β} {st : τ}
    (h : ∀ a ∈ l, (f a).run st = (g a, st)) : (l.mapM f).run st = (l.map g, st) := by
  induction l
  case nil => rfl
  case cons a l hi =>
    have ⟨ha, hl⟩ := List.forall_mem_cons.mp h
    rw [List.mapM_cons, run_bind ha, run_bind (hi hl)]
    rfl

theorem run_identify : (Drawing.identify s).run ids = match ids.find? s with
    | some id => (id, ids)
    | none => (identifier ids.keys.length, ids.insert s (identifier ids.keys.length)) := by
  simp only [Drawing.identify, StateT.run_bind, StateT.run_get, pure_bind]
  cases ids.find? s <;> rfl

namespace Numbered

theorem empty : Numbered [] ∅ where
  size  := rfl
  find? := fun _ => rfl

theorem identify_of_mem (h : Numbered done ids) (hs : s ∈ done) :
    (Drawing.identify s).run ids = (identifier (done.idxOf s), ids) := by
  have hf : ids.find? s = some (identifier (done.idxOf s)) := (h.find? s).trans (if_pos hs)
  rw [run_identify, hf]

theorem identify_of_not_mem (h : Numbered done ids) (hs : s ∉ done) :
    ∃ ids', (Drawing.identify s).run ids = (identifier done.length, ids') ∧
      Numbered (done ++ [s]) ids' := by
  have hf : ids.find? s = none := (h.find? s).trans (if_neg hs)
  have hk : s ∉ ids.keys := by simp [Table.mem_keys_iff, hf]
  refine ⟨ids.insert s (identifier done.length), by rw [run_identify, hf, h.size], ?size, ?find?⟩
  case size  => simp [Table.length_keys_insert, hk, h.size]
  case find? =>
    intro t
    rw [Table.find?_insert]
    by_cases ht : t = s
    case pos => simp [ht, List.idxOf_append_of_notMem hs]
    case neg =>
      rw [if_neg ht, h.find? t]
      by_cases hd : t ∈ done
      case pos => simp [hd, List.idxOf_append_of_mem hd]
      case neg => simp [hd, ht]

-- States that are drawn one after another get the identifiers of their places.
theorem nodes (h : Numbered done ids) (hn : (done ++ rest).Nodup) :
    ∃ ids', (rest.mapM (Drawing.node m)).run ids =
        (rest.map (nodeCall m.accepting (done ++ rest)), ids') ∧ Numbered (done ++ rest) ids' := by
  induction rest generalizing done ids
  case nil            => exact ⟨ids, rfl, by simpa using h⟩
  case cons s rest hi =>
    have hs : s ∉ done := fun hd => List.disjoint_of_nodup_append hn hd (.head _)
    have ⟨ids₁, hr₁, h₁⟩ := h.identify_of_not_mem hs
    have he : done ++ [s] ++ rest = done ++ s :: rest := List.append_assoc ..
    have ⟨ids₂, hr₂, h₂⟩ := hi h₁ (he ▸ hn)
    rw [he] at hr₂ h₂
    have hx : (done ++ s :: rest).idxOf s = done.length := by
      simp [List.idxOf_append_of_notMem hs]
    have hc : (Drawing.node m s).run ids = (nodeCall m.accepting (done ++ s :: rest) s, ids₁) := by
      rw [Drawing.node, run_bind hr₁, nodeCall, hx]
      rfl
    refine ⟨ids₂, ?_, h₂⟩
    rw [List.mapM_cons, run_bind hc, run_bind hr₂]
    rfl

end Numbered

-- All states are identified before the start and the edges are drawn, so each keeps the identifier
-- of its place.
theorem draw_eq {kind : Kind} (hw : m.WellFormed kind arrows) (hs : arrows.Pairwise (· < ·)) :
    draw m (.ofList arrows) = entry :: m.states.toList.map (nodeCall m.accepting m.states.toList) ++
      m.start.toList.map (startCall m.states.toList) ++
      (arrows.map ends).eraseDups.map (edgeCall m.states.toList arrows) := by
  have ⟨ids, nodes, hn⟩ : ∃ ids, (m.states.toList.mapM (Drawing.node m)).run ∅ =
      (m.states.toList.map (nodeCall m.accepting m.states.toList), ids) ∧
        Numbered m.states.toList ids := Numbered.empty.nodes m.states.nodup_toList
  have identify {s : String} (h : s ∈ m.states) :
      (Drawing.identify s).run ids = (identifier (m.states.toList.idxOf s), ids) :=
    hn.identify_of_mem h
  have starts : (m.start.toList.mapM Drawing.start).run ids =
      (m.start.toList.map (startCall m.states.toList), ids) := by
    refine run_mapM fun s h => ?_
    rw [Drawing.start, run_bind (identify (hw.start_mem s (by simpa using h)))]
    rfl
  have edges : ((arrows.foldl Drawing.gather []).mapM Drawing.edge).run ids =
      ((arrows.map ends).eraseDups.map (edgeCall m.states.toList arrows), ids) := by
    rw [foldl_gather, List.mapM_map]
    refine run_mapM fun p h => ?_
    obtain ⟨r, hr, rfl⟩ := List.mem_map.mp (List.mem_eraseDups.mp h)
    rw [Function.comp, Drawing.edge]
    exact (run_bind (identify (hw.source_mem r hr))).trans
      (run_bind (identify (hw.target_mem r hr)))
  rw [draw, Drawing.calls, run_bind nodes, run_bind starts, SortedSet.toList_ofList hs,
    run_bind edges]
  rfl

theorem entries_doubleCircle : doubleCircle.entries =
    [("fillcolor", "lightgreen"), ("peripheries", "2"), ("shape", "doublecircle")] := by
  decide +kernel

theorem entries_loopPorts : loopPorts.entries = [("headport", "n"), ("tailport", "n")] := by
  decide +kernel

theorem render_entry : Statement.entry.render quote = entry.text quote := by
  have he : (Table.ofList [("shape", "point"), ("width", "0.01"), ("style", "invis")]).entries =
      [("shape", "point"), ("style", "invis"), ("width", "0.01")] := by decide +kernel
  rw [entry, Call.text, he]
  rfl

theorem toIdentifier_eq {tail : String} {k : Nat} :
    s!"{tail} -> {identifier k}" = tail ++ " -> q" ++ toString k := by
  have hq : " -> q" = " -> " ++ "q" := by decide +kernel
  rw [hq]
  change tail ++ " -> " ++ ("q" ++ toString k) = _
  simp only [String.append_assoc]

theorem render_node {states : List String} {accepting : Labels} :
    (Statement.node (states.idxOf s) s (s ∈ accepting)).render quote =
      (nodeCall accepting states s).text quote := by
  by_cases h : s ∈ accepting
  case pos =>
    rw [nodeCall, if_pos h, Call.text, entries_doubleCircle]
    simp only [h, decide_true]
    rfl
  case neg =>
    rw [nodeCall, if_neg h]
    simp only [h, decide_false]
    rfl

theorem render_start {states : List String} :
    (Statement.start (states.idxOf s)).render quote = (startCall states s).text quote := by
  have he : entryName ++ " -> q" = "__start__ -> q" := by decide +kernel
  rw [startCall, Call.text, toIdentifier_eq, he]
  rfl

theorem render_edge {states : List String} {p : String × String} (h : p.1 ∈ states) :
    (Statement.edge (states.idxOf p.1) (states.idxOf p.2)
      (", ".intercalate (between arrows p))).render quote =
    (edgeCall states arrows p).text quote := by
  have ports : (if p.1 = p.2 then loopPorts else ∅).entries =
      if states.idxOf p.1 = states.idxOf p.2 then [("headport", "n"), ("tailport", "n")] else [] := by
    simp only [List.idxOf_inj h]
    split
    case isTrue  => exact entries_loopPorts
    case isFalse => rfl
  rw [edgeCall, Call.text, toIdentifier_eq, ports]
  rfl

theorem map_render_eq {kind : Kind} (hw : m.WellFormed kind arrows)
    (hs : arrows.Pairwise (· < ·)) :
    (ofAutomaton kind m arrows).statements.map (Statement.render quote) =
      (draw m (.ofList arrows)).map (Call.text quote) := by
  have edges : (arrows.map ends).eraseDups.map (fun p =>
      (Statement.edge (m.states.toList.idxOf p.1) (m.states.toList.idxOf p.2)
        (", ".intercalate (between arrows p))).render quote) =
      (arrows.map ends).eraseDups.map fun p =>
        (edgeCall m.states.toList arrows p).text quote := by
    refine List.map_congr_left fun p h => ?_
    obtain ⟨r, hr, rfl⟩ := List.mem_map.mp (List.mem_eraseDups.mp h)
    exact render_edge (hw.source_mem r hr)
  rw [draw_eq hw hs, ofAutomaton, bundles_eq]
  simp only [List.map_append, List.map_cons, List.map_map, Function.comp_def, Option.toList_map,
    edges, render_entry, render_node, render_start]

end Diagram
end RightLinear
