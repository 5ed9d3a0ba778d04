import Mathlib.Data.List.Chain
import Mathlib.Data.List.Forall2
import RightLinear.Proofs.Batch
import RightLinear.Proofs.DFA.Ordered
import RightLinear.Proofs.Text.Integer
import RightLinear.Proofs.Text.Pieces
import RightLinear.Report

namespace RightLinear

open Text (CodePoint Points points)

attribute [ext] Automaton

-- What two outcomes have in common that look alike: all of an automaton but the rows that it has
-- without entries, and the name and the text of an error.
inductive Outcome.Agree : Outcome → Outcome → Prop
  | done {id : Int} {d₁ d₂ : DFA Points} (hp : d₁.toAutomaton = d₂.toAutomaton)
    (hn : ∀ s a, d₁.next s a = d₂.next s a) : Agree ⟨id, .ok d₁⟩ ⟨id, .ok d₂⟩
  | failed {id : Int} {e₁ e₂ : Error} (ht : e₁.title = e₂.title) (hm : e₁.message = e₂.message) :
    Agree ⟨id, .error e₁⟩ ⟨id, .error e₂⟩

namespace Report

variable {o o₁ o₂ : Outcome} {d d₁ d₂ : DFA Points} {e e₁ e₂ : Error} {ls ls₁ ls₂ : List Points}
  {r r₁ r₂ : Arrow Points} {m n : Int}

def space : CodePoint := .char ' '

def newline : CodePoint := .char '\n'

def arrowLine (r : Arrow Points) : Points :=
  [space].intercalate [r.source, points r.symbol, r.target]

def dfaLines (heading : String) (d : DFA Points) : List Points :=
  [points (heading ++ ":"),
    points "# States", [space].intercalate d.orderedStates, [],
    points "# Alphabet", [space].intercalate (d.alphabet.map points), [],
    points "# Start State", d.start.getD (points (shown none)), [],
    points "# Final States", [space].intercalate d.accepting.toList, [],
    points "# Transitions"] ++ d.orderedArrows.map arrowLine ++ [[]]

def blockLines (o : Outcome) : List Points :=
  match o.result with
  | .ok d => dfaLines (toString o.id) d
  | .error e =>
    [points (toString o.id ++ ":"), points "# Error", points (e.title ++ ": " ++ e.message), []]

theorem points_append {s t : String} : points (s ++ t) = points s ++ points t := by
  rw [points, String.toList_append, List.map_append]
  rfl

theorem points_join {as : List String} :
    points (" ".intercalate as) = [space].intercalate (as.map points) := by
  have hs : (" ".toList.map CodePoint.char) = [space] := by decide
  rw [points, String.toList_intercalate, Text.map_intercalate, hs, List.map_map]
  rfl

theorem arrowLine_eq : arrowLine =
    fun r => r.source ++ (points (" " ++ r.symbol ++ " ") ++ r.target) := by
  have hs : points " " = [space] := by decide
  funext r
  simp [arrowLine, points_append, hs, List.intercalate_cons_cons]

theorem block_ok {id : Int} :
    block ⟨id, .ok d⟩ = Text.ended newline (dfaLines (toString id) d) := by
  have hs : points " " = [space] := by decide
  have hn : points "\n" = [newline] := by decide
  have hnn : points "\n\n" = [newline, newline] := by decide
  rw [dfaLines, Text.ended_append, Text.ended_eq_intercalate (by simp)]
  simp [block, dfaBlock, Text.ended, hs, hn, hnn, points_join, arrowLine_eq]

theorem block_error {id : Int} : block ⟨id, .error e⟩ =
    Text.ended newline
      [points (toString id ++ ":"), points "# Error", points (e.title ++ ": " ++ e.message), []] := by
  have he : points ":\n# Error\n" = points ":" ++ newline :: (points "# Error" ++ [newline]) := by
    decide
  have hnn : points "\n\n" = [newline, newline] := by decide
  have ht {s : String} : toString s = s := rfl
  simp [block, Text.ended, points_append, ht, he, hnn]

theorem block_eq : block o = Text.ended newline (blockLines o) := by
  have ⟨id, result⟩ := o
  cases result
  case ok    => exact block_ok
  case error => exact block_error

-- A label or a symbol that is one word of one line.
structure OneWord (s : Points) : Prop where
  nonempty : s ≠ []
  space    : space ∉ s
  newline  : newline ∉ s

theorem join_inj (h₁ : ∀ s ∈ ls₁, OneWord s) (h₂ : ∀ s ∈ ls₂, OneWord s)
    (h : [space].intercalate ls₁ = [space].intercalate ls₂) : ls₁ = ls₂ :=
  Text.eq_of_intercalate_eq (fun s hs => ⟨(h₁ s hs).nonempty, (h₁ s hs).space⟩)
    (fun s hs => ⟨(h₂ s hs).nonempty, (h₂ s hs).space⟩) h

theorem newline_not_mem_join (h : ∀ s ∈ ls, OneWord s) : newline ∉ [space].intercalate ls := by
  have hn : ∀ p ∈ [space].intercalate ls, p ≠ newline :=
    Text.forall_mem_intercalate (by decide) fun s hs p hp he => (h s hs).newline (he ▸ hp)
  exact fun hm => hn _ hm rfl

structure LegibleDFA (d : DFA Points) : Prop where
  valid   : d.Valid
  start   : d.start.isSome = true
  labels  : ∀ s ∈ d.states, OneWord s
  symbols : ∀ a ∈ d.alphabet, OneWord (points a)

-- An error needs a line of its own.
inductive Legible : Outcome → Prop
  | done {id : Int} {d : DFA Points} (h : LegibleDFA d) : Legible ⟨id, .ok d⟩
  | failed {id : Int} {e : Error} (h : Text.OneLine e.message) : Legible ⟨id, .error e⟩

namespace LegibleDFA

variable (h : LegibleDFA d)
include h

theorem orderedStates : ∀ s ∈ d.orderedStates, OneWord s :=
  fun s hs => h.labels s ((DFA.mem_orderedStates_iff h.valid.start_mem).mp hs)

theorem accepting : ∀ s ∈ d.accepting.toList, OneWord s :=
  fun s hs => h.labels s (h.valid.accepting_mem s hs)

theorem alphabet : ∀ s ∈ d.alphabet.map points, OneWord s :=
  List.forall_mem_map.mpr h.symbols

theorem arrow (hr : r ∈ d.orderedArrows) :
    ∀ s ∈ [r.source, points r.symbol, r.target], OneWord s := by
  have hn := h.valid.mem_orderedArrows_iff.mp hr
  simpa using ⟨h.labels _ (h.valid.source_mem hn), h.symbols _ (h.valid.symbol_mem hn),
    h.labels _ (h.valid.target_mem hn)⟩

theorem exists_start : ∃ s, d.start = some s ∧ OneWord s := by
  have ⟨s, hs⟩ := Option.isSome_iff_exists.mp h.start
  exact ⟨s, hs, h.labels s (h.valid.start_mem s hs)⟩

end LegibleDFA

theorem space_mem_arrowLine : space ∈ arrowLine r := by
  simp [arrowLine, List.intercalate_cons_cons]

theorem arrowLine_ne_nil : arrowLine r ≠ [] :=
  List.ne_nil_of_mem space_mem_arrowLine

theorem arrowLine_inj (h₁ : LegibleDFA d₁) (h₂ : LegibleDFA d₂) (hr₁ : r₁ ∈ d₁.orderedArrows)
    (hr₂ : r₂ ∈ d₂.orderedArrows) (h : arrowLine r₁ = arrowLine r₂) : r₁ = r₂ := by
  have he := join_inj (h₁.arrow hr₁) (h₂.arrow hr₂) h
  simp only [List.cons.injEq, and_true] at he
  have ⟨hs, ha, ht⟩ := he
  cases r₁
  cases r₂
  exact congr (congr (congrArg Arrow.mk hs) (points_injective ha)) ht

theorem orderedArrows_inj (h₁ : LegibleDFA d₁) (h₂ : LegibleDFA d₂)
    (h : d₁.orderedArrows.map arrowLine = d₂.orderedArrows.map arrowLine) :
    d₁.orderedArrows = d₂.orderedArrows := by
  have hl := congrArg List.length h
  rw [List.length_map, List.length_map] at hl
  refine List.ext_getElem hl fun i hi hj => ?_
  refine arrowLine_inj h₁ h₂ (List.getElem_mem hi) (List.getElem_mem hj) ?_
  have he := List.getElem_of_eq h (i := i) (by rwa [List.length_map])
  rwa [List.getElem_map, List.getElem_map] at he

-- The transitions of a DFA as its block ends with them: under a heading, up to the first empty
-- line, and each on one line.
structure ListsArrows (d : DFA Points) (b : Points) : Prop where
  block    : ∃ above, b = Text.ended newline
    (above ++ points "# Transitions" :: d.orderedArrows.map arrowLine ++ [[]])
  nonempty : [] ∉ d.orderedArrows.map arrowLine
  nodup    : (d.orderedArrows.map arrowLine).Nodup
  mem      : ∀ r, r ∈ d.orderedArrows ↔ r ∈ d.arrows

theorem LegibleDFA.listsArrows {id : Int} (h : LegibleDFA d) :
    ListsArrows d (block ⟨id, .ok d⟩) where
  block    := ⟨(dfaLines (toString id) d).take 13, block_ok⟩
  nonempty := by simp [arrowLine_ne_nil]
  nodup    := h.valid.nodup_orderedArrows.map_on fun _ hr _ hq he => arrowLine_inj h h hr hq he
  mem _    := h.valid.mem_orderedArrows_iff.trans DFA.mem_arrows_iff.symm

theorem heading_inj (h : points (toString m ++ ":") = points (toString n ++ ":")) : m = n :=
  Text.toString_int_injective ((String.append_left_inj ":").mp (points_injective h))

theorem newline_not_mem_points {s : String} : newline ∉ points s ↔ Text.OneLine s := by
  simp [points, newline, Text.OneLine]

theorem newline_not_mem_heading : newline ∉ points (toString n ++ ":") :=
  newline_not_mem_points.mpr (Text.oneLine_toString.append (by decide))

theorem space_not_mem_heading : space ∉ points (toString n ++ ":") := by
  intro h
  have hm : ' ' ∈ (toString n ++ ":").toList := by simpa [points, space] using h
  rw [String.toList_append] at hm
  cases List.mem_append.mp hm
  case inr hm => exact absurd hm (by decide)
  case inl hm =>
    cases Text.mem_toString_int hm
    case inl hm => exact absurd hm (by decide)
    case inr hm => exact absurd hm (by decide)

theorem colon_not_mem_title : CodePoint.char ':' ∉ points e.title := by
  cases e <;> simp only [Error.title] <;> decide

theorem oneLine_title : Text.OneLine e.title := by
  cases e <;> simp only [Error.title] <;> decide

theorem errorLine_inj
    (h : points (e₁.title ++ ": " ++ e₁.message) = points (e₂.title ++ ": " ++ e₂.message)) :
    e₁.title = e₂.title ∧ e₁.message = e₂.message := by
  have hc {s t : String} :
      points (s ++ ": " ++ t) = points s ++ .char ':' :: space :: points t := by
    have hc : points ": " = [.char ':', space] := by decide
    rw [points_append, points_append, hc, List.append_assoc]
    rfl
  rw [hc, hc] at h
  have ⟨ht, hm⟩ := Text.append_stop_inj colon_not_mem_title colon_not_mem_title h
  exact ⟨points_injective ht, points_injective (List.cons.inj hm).right⟩

theorem newline_not_mem_dfaLines {id : Int} (h : LegibleDFA d) :
    ∀ l ∈ dfaLines (toString id) d, newline ∉ l := by
  have ⟨s, hs, hw⟩ := h.exists_start
  have ha : ∀ r ∈ d.orderedArrows, newline ∉ arrowLine r :=
    fun r hr => newline_not_mem_join (h.arrow hr)
  rw [dfaLines, hs, Option.getD_some]
  simp only [List.forall_mem_append, List.forall_mem_cons, List.forall_mem_map]
  exact ⟨⟨⟨newline_not_mem_heading, by decide, newline_not_mem_join h.orderedStates, nofun,
    by decide, newline_not_mem_join h.alphabet, nofun, by decide, hw.newline, nofun, by decide,
    newline_not_mem_join h.accepting, nofun, by decide, nofun⟩, ha⟩, nofun, nofun⟩

theorem newline_not_mem_blockLines (h : Legible o) : ∀ l ∈ blockLines o, newline ∉ l := by
  cases h
  case done h     => exact newline_not_mem_dfaLines h
  case failed e h =>
    have he : newline ∉ points (e.title ++ ": " ++ e.message) :=
      newline_not_mem_points.mpr ((oneLine_title.append (by decide)).append h)
    simp only [blockLines, List.forall_mem_cons]
    exact ⟨newline_not_mem_heading, by decide, he, nofun, nofun⟩

theorem agree_of_dfaLines {heading₁ heading₂ : String} (h₁ : LegibleDFA d₁) (h₂ : LegibleDFA d₂)
    (h : dfaLines heading₁ d₁ ++ ls₁ = dfaLines heading₂ d₂ ++ ls₂) :
    points (heading₁ ++ ":") = points (heading₂ ++ ":") ∧ d₁.toAutomaton = d₂.toAutomaton ∧
      (∀ s a, d₁.next s a = d₂.next s a) ∧ ls₁ = ls₂ := by
  simp only [dfaLines, List.cons_append, List.nil_append, List.append_assoc, List.cons.injEq,
    true_and] at h
  have ⟨hh, hs, ha, hi, hf, hr⟩ := h
  have hn {d : DFA Points} : [] ∉ d.orderedArrows.map arrowLine := by simp [arrowLine_ne_nil]
  have ⟨hr, hls⟩ := Text.append_stop_inj hn hn hr
  have hs : d₁.orderedStates = d₂.orderedStates := join_inj h₁.orderedStates h₂.orderedStates hs
  have ha := join_inj h₁.alphabet h₂.alphabet ha
  have hf : d₁.accepting.toList = d₂.accepting.toList := join_inj h₁.accepting h₂.accepting hf
  have hr := orderedArrows_inj h₁ h₂ hr
  refine ⟨hh, ?_, fun s a => ?_, hls⟩
  case refine_1 =>
    ext1
    case states   =>
      ext s
      rw [← DFA.mem_orderedStates_iff h₁.valid.start_mem, hs,
        DFA.mem_orderedStates_iff h₂.valid.start_mem]
    case alphabet => exact List.map_injective_iff.mpr (fun _ _ => points_injective) ha
    case start =>
      have ⟨s₁, hs₁, _⟩ := h₁.exists_start
      have ⟨s₂, hs₂, _⟩ := h₂.exists_start
      rw [hs₁, hs₂] at hi ⊢
      exact congrArg some hi
    case accepting =>
      ext s
      rw [← SortedSet.mem_toList, hf, SortedSet.mem_toList]
  case refine_2 =>
    ext t
    have e₁ := h₁.valid.mem_orderedArrows_iff (r := ⟨s, a, t⟩)
    have e₂ := h₂.valid.mem_orderedArrows_iff (r := ⟨s, a, t⟩)
    exact e₁.symm.trans (hr ▸ e₂)

theorem agree_of_lines (h₁ : Legible o₁) (h₂ : Legible o₂)
    (h : blockLines o₁ ++ ls₁ = blockLines o₂ ++ ls₂) : o₁.Agree o₂ ∧ ls₁ = ls₂ := by
  have hne : points "# States" ≠ points "# Error" := by decide
  cases h₁ <;> cases h₂
  case done.done h₁ _ _ h₂ =>
    have ⟨hh, hp, hn, hls⟩ := agree_of_dfaLines h₁ h₂ h
    cases heading_inj hh
    exact ⟨.done hp hn, hls⟩
  case done.failed => exact absurd (List.cons.inj (List.cons.inj h).right).left hne
  case failed.done => exact absurd (List.cons.inj (List.cons.inj h).right).left hne.symm
  case failed.failed =>
    simp only [blockLines, List.cons_append, List.nil_append, List.cons.injEq, true_and] at h
    have ⟨hh, he, hls⟩ := h
    have ⟨ht, hm⟩ := errorLine_inj he
    cases heading_inj hh
    exact ⟨.failed ht hm, hls⟩

-- Two lines that a block does not begin with.
def Apart (l m : Points) : Prop :=
  space ∈ l ∨ l = [] ∨ m = []

theorem isChain_apart (h : ∀ l ∈ ls, space ∈ l) : (ls ++ [[]]).IsChain Apart := by
  induction ls
  case nil => exact .singleton _
  case cons l ls hi =>
    have ⟨hl, h⟩ := List.forall_mem_cons.mp h
    cases ls
    case nil  => exact .cons_cons (.inl hl) (.singleton _)
    case cons => exact .cons_cons (.inl hl) (hi h)

theorem isChain_blockLines : (blockLines o).tail.IsChain Apart := by
  have ⟨id, result⟩ := o
  cases result
  case error e =>
    have he : space ∈ points (e.title ++ ": " ++ e.message) := by
      simp [points, space]
    exact @isChain_apart [points "# Error", _] (by simpa using ⟨by decide, he⟩)
  case ok d =>
    have hs : ∀ l ∈ points "# Transitions" :: d.orderedArrows.map arrowLine, space ∈ l :=
      List.forall_mem_cons.mpr
        ⟨by decide, List.forall_mem_map.mpr fun _ _ => space_mem_arrowLine⟩
    have h := isChain_apart hs
    have hm : space ∈ points "# States" ∧ space ∈ points "# Alphabet" ∧
      space ∈ points "# Start State" ∧ space ∈ points "# Final States" := by decide
    simp only [blockLines, dfaLines, List.cons_append, List.nil_append, List.tail_cons,
      List.isChain_cons_cons] at h ⊢
    simp [Apart, hm, h]

theorem exists_blockLines :
    ∃ m ms, blockLines o = points (toString o.id ++ ":") :: m :: ms ∧ m ≠ [] := by
  have ⟨id, result⟩ := o
  cases result
  case ok    => exact ⟨_, _, rfl, by decide⟩
  case error => exact ⟨_, _, rfl, by decide⟩

theorem eq_nil_of_blockLines (h : blockLines o₁ = ls₁ ++ blockLines o₂ ++ ls₂) : ls₁ = [] := by
  cases ls₁
  case nil  => rfl
  case cons l ls =>
    have ⟨m, ms, he, hm⟩ := exists_blockLines (o := o₂)
    have hc := isChain_blockLines (o := o₁)
    rw [h, he, List.append_assoc, List.cons_append, List.tail_cons] at hc
    have hr := (List.isChain_append_cons_cons.mp hc).right.left
    cases hr
    case inl hs => exact absurd hs space_not_mem_heading
    case inr hn =>
      cases hn
      case inl hn => exact absurd hn (by simp [points])
      case inr hn => exact absurd hn hm

theorem agree_of_block_append {a b : Points} (h₁ : Legible o₁) (h₂ : Legible o₂)
    (h : block o₁ ++ a = block o₂ ++ b) : o₁.Agree o₂ ∧ a = b := by
  rw [block_eq, block_eq] at h
  have hp := Text.prefix_or_prefix_of_ended (newline_not_mem_blockLines h₁)
    (newline_not_mem_blockLines h₂) h
  have ⟨ha, hl⟩ : o₁.Agree o₂ ∧ blockLines o₁ = blockLines o₂ := by
    cases hp
    case inl hp =>
      have ⟨ls, hl⟩ := hp
      have he : blockLines o₁ ++ ls = blockLines o₂ ++ [] := by rw [hl, List.append_nil]
      have ⟨ha, hn⟩ := agree_of_lines h₁ h₂ he
      exact ⟨ha, by rw [← hl, hn, List.append_nil]⟩
    case inr hp =>
      have ⟨ls, hl⟩ := hp
      have he : blockLines o₁ ++ [] = blockLines o₂ ++ ls := by rw [hl, List.append_nil]
      have ⟨ha, hn⟩ := agree_of_lines h₁ h₂ he
      exact ⟨ha, by rw [← hl, ← hn, List.append_nil]⟩
  exact ⟨ha, List.append_cancel_left (hl ▸ h)⟩

-- A block also shows where it begins, for nothing else in it looks like its first two lines.
theorem agree_of_block_eq_append {a b : Points} (h₁ : Legible o₁) (h₂ : Legible o₂)
    (ha : a = [] ∨ a.getLast? = some newline) (h : block o₁ = a ++ block o₂ ++ b) :
    o₁.Agree o₂ ∧ a = [] ∧ b = [] := by
  obtain ⟨ls, hn, he⟩ := Text.exists_ended ha
  have hl : ∀ l ∈ ls ++ blockLines o₂, newline ∉ l :=
    List.forall_mem_append.mpr ⟨hn, newline_not_mem_blockLines h₂⟩
  have hb : Text.ended newline (blockLines o₁) = Text.ended newline (ls ++ blockLines o₂) ++ b := by
    rw [Text.ended_append, he, ← block_eq, ← block_eq, h]
  obtain ⟨ms, hp⟩ := Text.prefix_of_ended (newline_not_mem_blockLines h₁) hl hb
  have ha : a = [] := by rw [← he, eq_nil_of_blockLines hp.symm, Text.ended, List.flatMap_nil]
  have he : block o₁ ++ [] = block o₂ ++ b := by rw [h, ha, List.append_nil, List.nil_append]
  obtain ⟨hg, hb⟩ := agree_of_block_append h₁ h₂ he
  exact ⟨hg, ha, hb.symm⟩

theorem block_ne_nil : block o ≠ [] := by
  have ⟨id, result⟩ := o
  cases result <;> simp [block_eq, blockLines, dfaLines, Text.ended]

-- A block shows where it ends: the first empty line after the transitions, or after an error,
-- closes it.
theorem agree_of_text_eq {os₁ os₂ : List Outcome} (h₁ : ∀ o ∈ os₁, Legible o)
    (h₂ : ∀ o ∈ os₂, Legible o) (h : text os₁ = text os₂) : List.Forall₂ Outcome.Agree os₁ os₂ := by
  induction os₁ generalizing os₂
  case nil =>
    cases os₂
    case nil  => exact .nil
    case cons => exact absurd (List.append_eq_nil_iff.mp h.symm).left block_ne_nil
  case cons o os₁ hi =>
    cases os₂
    case nil  => exact absurd (List.append_eq_nil_iff.mp h).left block_ne_nil
    case cons =>
      have ⟨ho₁, h₁⟩ := List.forall_mem_cons.mp h₁
      have ⟨ho₂, h₂⟩ := List.forall_mem_cons.mp h₂
      have ⟨ha, hr⟩ := agree_of_block_append ho₁ ho₂ h
      exact .cons ha (hi h₁ h₂ hr)

end Report
end RightLinear
