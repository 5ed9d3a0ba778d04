import RightLinear.Proofs.CaseFile.OnLines
import RightLinear.Proofs.Report.Block
import RightLinear.Proofs.TestCase

namespace RightLinear

open Text (IsWord OneLine Points points)

variable {c : TestCase} {d d₁ d₂ : DFA String} {dfas : List (DFA String)} {g : Grammar} {e : Error}
  {names : RenameMap} {operation : Option String} {asked : Option Operation}

theorem oneLine_braces {as : List String} (h : ∀ a ∈ as, IsWord a) : OneLine (Error.braces as) := by
  have hj : OneLine (", ".intercalate as) := by
    have hm : ∀ c ∈ (", ".intercalate as).toList, c ≠ '\n' := by
      rw [String.toList_intercalate]
      refine Text.forall_mem_intercalate (by decide) ?_
      exact List.forall_mem_map.mpr fun a ha c hc he => (h a ha).oneLine (he ▸ hc)
    exact fun hn => hm _ hn rfl
  exact (OneLine.append (by decide) hj).append (by decide)

theorem oneLine_obstacle {p : Production} {o : Obstacle} (hr : OneLine p.right)
    (h : g.Obstructs p o) : OneLine o.message := by
  have quoted {s t : String} (hs : OneLine s) (ht : OneLine t) : OneLine ("'" ++ s ++ t) :=
    (OneLine.append (by decide) hs).append ht
  have mem {cs : List Char} {a : Char} (he : p.right = .ofList cs) (ha : a ∈ cs) :
      OneLine (.singleton a) := .of_subset hr (by simpa [he] using ha)
  cases h
  case alone          => exact quoted hr (by decide)
  case first hr' _    => exact quoted (mem hr' (.head _)) (by decide)
  case second hr' _ _ => exact quoted (mem hr' (.tail _ (.head _))) (by decide)
  case shape          => decide

theorem oneLine_grammarCount {name : String} {m n : Int} (h : OneLine name) :
    OneLine (Error.grammarCount name m n).message :=
  have hm := (h.append (t := " requires at least ") (by decide)).append Text.oneLine_toString
  (hm.append (by decide)).append Text.oneLine_toString

theorem oneLine_alphabetMismatch {as bs : List String} {op : Operation} (ha : ∀ a ∈ as, IsWord a)
    (hb : ∀ b ∈ bs, IsWord b) : OneLine (Error.alphabetMismatch as bs op.title).message :=
  have hn : OneLine op.title := by cases op <;> decide
  have hl := ((OneLine.append (by decide) hn).append (by decide)).append (oneLine_braces ha)
  (hl.append (by decide)).append (oneLine_braces hb)

theorem oneLine_of_refused (hg : g.OnLines) (h : g.Refused e) : OneLine e.message := by
  cases h
  case noStart => exact (OneLine.append (by decide) hg.name).append (by decide)
  case production before after p o hs hp hb ho =>
    have hm : p ∈ g.productions := hp ▸ List.mem_append_right _ (.head _)
    have hn : OneLine ("Unsupported production " ++ p.left ++ " -> " ++ p.right) :=
      ((OneLine.append (by decide) (hg.left p hm)).append (by decide)).append (hg.right p hm)
    refine hn.append ?_
    split
    case isTrue  => decide
    case isFalse =>
      exact (OneLine.append (by decide) (oneLine_obstacle (hg.right p hm) ho)).append (by decide)

-- A DFA that starts somewhere, with words for symbols.
structure Worded (d : DFA String) : Prop where
  valid   : d.Valid
  start   : d.start.isSome = true
  symbols : ∀ a ∈ d.alphabet, IsWord a

theorem worded_of_toDFA (hg : g.OnLines) (h : g.toDFA = .ok d) : Worded d :=
  have hb := Grammar.built_of_toDFA h
  ⟨hb.valid, hb.start, hb.alphabet ▸ hg.terminals⟩

theorem worded_of_mapM {gs : List Grammar} (hg : ∀ g ∈ gs, g.OnLines)
    (h : gs.mapM Grammar.toDFA = .ok dfas) : ∀ d ∈ dfas, Worded d := by
  intro d hd
  have ⟨g, hm, hg'⟩ := (mem_of_mapM_eq_ok h).mp hd
  exact worded_of_toDFA (hg g hm) hg'

theorem Combined.worded (hd : ∀ d ∈ dfas, Worded d) (h : Combined asked dfas d) : Worded d := by
  have hv := h.valid fun d hm => (hd d hm).valid
  cases h
  case pass               => exact hd _ (.head _)
  case complement d₁ _    => exact ⟨hv, (hd d₁ (.head _)).start, (hd d₁ (.head _)).symbols⟩
  case product d₁ _ _ _ h =>
    have ⟨_, he⟩ := DFA.make_eq_ok_iff.mp (DFA.make_of_product h)
    refine ⟨hv, by rw [← he]; rfl, fun a ha => (hd d₁ (.head _)).symbols a ?_⟩
    rw [← he] at ha
    exact List.mem_eraseDups.mp ha

theorem oneLine_of_combine (hd : ∀ d ∈ dfas, Worded d) (ho : ∀ o, operation = some o → OneLine o)
    (h : combine dfas operation = .error e) : OneLine e.message := by
  by_cases hk : operationName operation = "" ∨
      Operation.ofName? (operationName operation) ≠ none
  case neg =>
    have ⟨hn, ha⟩ := not_or.mp hk
    rw [combine_unknown hn (not_not.mp ha)] at h
    have ho : OneLine (operation.getD "") := by
      cases operation
      case none   => decide
      case some o => exact ho o rfl
    exact Except.error.inj h ▸ OneLine.append (by decide) ho
  case pos =>
    by_cases ha : dfas.length < Operation.arity (Operation.ofName? (operationName operation))
    case pos =>
      rw [combine_tooFew hk ha] at h
      refine Except.error.inj h ▸ oneLine_grammarCount ?_
      cases Operation.ofName? (operationName operation)
      case none    => decide
      case some op => cases op <;> decide
    case neg =>
      have ⟨op, d₁, d₂, ds, _, _, hds, h⟩ := product_of_combine_eq_error hk (Nat.not_lt.mp ha) h
      have h₁ := hd d₁ (hds ▸ .head _)
      have h₂ := hd d₂ (hds ▸ .tail _ (.head _))
      have he := DFA.mismatch_of_product h₁.valid h₂.valid h₁.start h₂.start h
      exact he ▸ oneLine_alphabetMismatch h₁.symbols h₂.symbols

-- What is read from a text stands on lines, so no error has a line feed.
theorem oneLine_of_run (hc : CaseFile.Holds Grammar.OnLines OneLine c)
    (h : c.run names = .error e) : OneLine e.message := by
  rw [TestCase.run, bind_eq_error_iff, mapM_eq_error_iff] at h
  cases h
  case inl h =>
    obtain ⟨_, g, _, hg, _, h⟩ := h
    have hm : g ∈ c.grammars := hg ▸ List.mem_append_right _ (.head _)
    exact oneLine_of_refused (hc.grammars g hm) (Grammar.toDFA_eq_error_iff.mp h)
  case inr h =>
    obtain ⟨dfas, hm, h⟩ := h
    exact oneLine_of_combine (worded_of_mapM hc.grammars hm) hc.operation
      (TestCase.finish_eq_error_iff.mp h)

theorem isWord_startLabel : IsWord startLabel :=
  ⟨by decide, by decide⟩

theorem isWord_of_mem_letters {reserved a : String} (h : a ∈ letters reserved) : IsWord a := by
  have hb : ∀ c ∈ "ABCDEFGHIJKLMNOPQRSTUVWXYZ".toList, Text.isBlank c = false := by decide +kernel
  have ⟨c, hc, he⟩ := List.mem_map.mp (List.mem_filter.mp h).left
  rw [← he]
  exact ⟨by simp, by simpa using hb c hc⟩

theorem isWord_readable {reserved : String} {k : Nat} : IsWord (readable reserved k) := by
  have ⟨hk, he⟩ := readable_eq reserved k
  have hl := isWord_of_mem_letters (List.getElem_mem hk)
  rw [he]
  refine ⟨by simp [hl.nonempty], fun c hc => ?_⟩
  rw [String.toList_append] at hc
  cases List.mem_append.mp hc
  case inl hc => exact hl.not_blank c hc
  case inr hc =>
    split at hc
    case isTrue  => cases hc
    case isFalse => exact Text.not_blank_of_isDigit (Text.isDigit_of_mem_toString hc)

theorem isWord_readableLabel {s : String} (hs : s ∈ d.states) :
    IsWord ((d.readableLabels.find? s).getD s) := by
  have ⟨label, hl, h⟩ := DFA.exists_readableLabel hs
  rw [hl, Option.getD_some]
  cases h
  case inl h =>
    have ⟨_, h⟩ := h
    exact h ▸ isWord_startLabel
  case inr h =>
    have ⟨_, _, h⟩ := h
    exact h ▸ isWord_readable

theorem oneWord_points {s : String} (h : IsWord s) : Report.OneWord (points s) where
  nonempty   := by simpa [points] using h.nonempty
  newline    := Report.newline_not_mem_points.mpr h.oneLine
  space hs   := by
    have hm : ' ' ∈ s.toList := by simpa [points, Report.space] using hs
    exact absurd (h.not_blank _ hm) (by decide)

theorem legibleDFA_of_run {d : DFA Points} (hc : CaseFile.Holds Grammar.OnLines OneLine c)
    (h : c.run ∅ = .ok d) : Report.LegibleDFA d := by
  have ⟨dfas, hm, hf⟩ := exists_of_bind_eq_ok h
  have ⟨e, he, hr⟩ := exists_of_bind_eq_ok hf
  have hw := (combined_of_combine he).worded (worded_of_mapM hc.grammars hm)
  let f (s : String) := points ((e.trim.readableLabels.find? s).getD s)
  have hl : e.trim.relabel f = .ok (e.trim.relabelled f) :=
    DFA.relabel_eq_ok_iff.mpr ⟨DFA.noStrayRow_trim, rfl⟩
  cases hr.symm.trans hl
  refine ⟨TestCase.valid_of_run h, Option.isSome_map.trans hw.start, fun s hs => ?_,
    fun a ha => oneWord_points (hw.symbols a ha)⟩
  have ⟨q, hq, hs⟩ := SortedSet.mem_image.mp hs
  exact hs ▸ oneWord_points (isWord_readableLabel hq)

theorem legible_of_read {text : List Char} {reading : CaseFile.Reading}
    (h : CaseFile.read text = .ok reading) : ∀ o ∈ runBatch reading.cases ∅, Report.Legible o := by
  refine List.forall_mem_map.mpr fun c hm => ?_
  have hc := CaseFile.onLines_of_read h hm
  change Report.Legible ⟨c.id, c.run ∅⟩
  cases hr : c.run ∅
  case ok d    => exact .done (legibleDFA_of_run hc hr)
  case error e => exact .failed (oneLine_of_run hc hr)

theorem report_determines_results {text₁ text₂ : List Char} {reading₁ reading₂ : CaseFile.Reading}
    (h₁ : CaseFile.read text₁ = .ok reading₁) (h₂ : CaseFile.read text₂ = .ok reading₂) :
    (Report.text (runBatch reading₁.cases ∅) = Report.text (runBatch reading₂.cases ∅) →
      List.Forall₂ Outcome.Agree (runBatch reading₁.cases ∅) (runBatch reading₂.cases ∅)) ∧
    (∀ o₁ ∈ runBatch reading₁.cases ∅, ∀ o₂ ∈ runBatch reading₂.cases ∅, ∀ a b,
      Report.block o₁ ++ a = Report.block o₂ ++ b → o₁.Agree o₂ ∧ a = b) ∧
    (∀ o₁ ∈ runBatch reading₁.cases ∅, ∀ o₂ ∈ runBatch reading₂.cases ∅, ∀ a b,
      a = [] ∨ a.getLast? = some Report.newline → Report.block o₁ = a ++ Report.block o₂ ++ b →
        o₁.Agree o₂ ∧ a = [] ∧ b = []) ∧
    ∀ o ∈ runBatch reading₁.cases ∅, ∀ d, o.result = .ok d →
      Report.ListsArrows d (Report.block o) := by
  have hl₁ := legible_of_read h₁
  have hl₂ := legible_of_read h₂
  refine ⟨Report.agree_of_text_eq hl₁ hl₂, fun o₁ ho₁ o₂ ho₂ _ _ h => ?_,
    fun o₁ ho₁ o₂ ho₂ _ _ ha h => ?_, fun o ho d hd => ?_⟩
  case refine_1 => exact Report.agree_of_block_append (hl₁ o₁ ho₁) (hl₂ o₂ ho₂) h
  case refine_2 => exact Report.agree_of_block_eq_append (hl₁ o₁ ho₁) (hl₂ o₂ ho₂) ha h
  case refine_3 =>
    cases hl₁ o ho
    case done h   => exact Except.ok.inj hd ▸ h.listsArrows
    case failed h => cases hd

-- Test cases that are written in two ways, with other names for the grammars. The second has no
-- symbols, and the third fails.
def plainText : List Char :=
  String.toList <| "1:\nG1:\n# alphabet\na\n# start\nS\n# rules\nS -> aS | ε\n" ++
    "2:\nG1:\n# start\nS\n# rules\nS -> ε\n3:\nmix\n"

def variedText : List Char :=
  String.toList <| "1:\r\nG2:\n\n# Alphabet\na\n# Start\nS\n# Rules\nS → eps\nS → aS\n========\n" ++
    "2:\nG3:\n# Start\n S \n# Rules\nS -> λ\n\n3:\n# Operation\nmix"

def twinReading (name₁ name₂ : String) (rules : List Production) : CaseFile.Reading where
  notices := []
  cases   := [
    { id       := 1
      grammars := [{
        name               := name₁
        terminals          := ["a"]
        start              := some "S"
        productions        := rules
        terminals_unmarked := by decide +kernel }] },
    { id       := 2
      grammars := [{ name := name₂, start := some "S", productions := [⟨"S", "ε"⟩] }] },
    { id        := 3
      operation := some "mix" }]

theorem report_determines_results_twins :
    CaseFile.read plainText = .ok (twinReading "G1" "G1" [⟨"S", "aS"⟩, ⟨"S", "ε"⟩]) ∧
    CaseFile.read variedText = .ok (twinReading "G2" "G3" [⟨"S", "ε"⟩, ⟨"S", "aS"⟩]) ∧
    List.Forall₂ Outcome.Agree
      (runBatch (twinReading "G1" "G1" [⟨"S", "aS"⟩, ⟨"S", "ε"⟩]).cases ∅)
      (runBatch (twinReading "G2" "G3" [⟨"S", "ε"⟩, ⟨"S", "aS"⟩]).cases ∅) := by
  have h₁ : CaseFile.read plainText = .ok (twinReading "G1" "G1" [⟨"S", "aS"⟩, ⟨"S", "ε"⟩]) := by
    decide +kernel
  have h₂ : CaseFile.read variedText = .ok (twinReading "G2" "G3" [⟨"S", "ε"⟩, ⟨"S", "aS"⟩]) := by
    decide +kernel
  exact ⟨h₁, h₂, (report_determines_results h₁ h₂).left (by decide +kernel)⟩

end RightLinear
