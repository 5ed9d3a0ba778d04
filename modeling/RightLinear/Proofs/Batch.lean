import RightLinear.Batch
import RightLinear.Proofs.CaseFile.Reader
import RightLinear.Proofs.DFA.Product
import RightLinear.Proofs.DFA.Relabel
import RightLinear.Proofs.DFA.Trim

namespace RightLinear

variable {dfas : List (DFA String)} {operation : Option String} {d d₁ d₂ e : DFA String}
  {g g₁ g₂ : Grammar} {c : TestCase} {w : List String}

-- What `combine` comes to.
inductive Combined : Option Operation → List (DFA String) → DFA String → Prop
  | pass (d : DFA String) (ds : List (DFA String)) : Combined none (d :: ds) d
  | complement (d : DFA String) (ds : List (DFA String)) :
    Combined (some .complement) (d :: ds) d.complement
  | product {op : Operation} {d₁ d₂ e : DFA String} (ds : List (DFA String))
    (ho : op ≠ .complement) (h : DFA.product op d₁.complete d₂.complete = .ok e) :
    Combined (some op) (d₁ :: d₂ :: ds) e

theorem combined_of_combine (h : combine dfas operation = .ok e) :
    Combined (Operation.ofName? (operationName operation)) dfas e := by
  simp only [combine] at h
  split at h
  case isTrue he =>
    rw [String.isEmpty_iff.mp he]
    split at h
    case h_1 => exact Except.ok.inj h ▸ .pass ..
    case h_2 => cases h
  case isFalse =>
    split at h
    case h_1 => cases h
    case h_2 ho =>
      rw [ho]
      split at h
      case h_1 => exact Except.ok.inj h ▸ .complement ..
      case h_2 => cases h
    case h_3 op hc ho =>
      rw [ho]
      split at h
      case h_1 => exact .product _ hc h
      case h_2 => cases h

theorem product_sameSymbols {op : Operation} (h : DFA.product op d₁ d₂ = .ok e) :
    ∀ a, a ∈ d₁.alphabet ↔ a ∈ d₂.alphabet := by
  rw [DFA.product] at h
  split at h
  case isFalse   => cases h
  case isTrue hs => exact DFA.sameSymbols_iff.mp hs

open Grammar (Recognizes)

-- A product that there is has the right symbols, so the completed DFAs are factors.
theorem product_completed {op : Operation} (h₁ : Recognizes d₁ g₁) (h₂ : Recognizes d₂ g₂)
    (hl : LeavesCode (d₁.states.toList ++ d₂.states.toList))
    (h : DFA.product op d₁.complete d₂.complete = .ok e) :
    (∀ a, a ∈ g₁.terminals ↔ a ∈ g₂.terminals) ∧ e.Valid ∧ e.isComplete = true ∧
      ∀ w, e.accepts w = op.accepts (d₁.accepts w) (d₂.accepts w) := by
  have ha := product_sameSymbols h
  have hf := DFA.factors_complete h₁.valid h₂.valid h₁.start h₂.start ha hl
  cases h.symm.trans hf.product_eq
  refine ⟨fun a => ?_, hf.valid_pairs, hf.isComplete_pairs, fun w => ?_⟩
  · rw [← h₁.alphabet, ← h₂.alphabet]
    exact ha a
  · rw [hf.accepts_pairs, h₁.valid.accepts_complete, h₂.valid.accepts_complete]

namespace TestCase

def asked (c : TestCase) : Option Operation :=
  Operation.ofName? (operationName c.operation)

-- The grammars that the operation uses.
def operands (c : TestCase) : List Grammar :=
  match c.asked with
  | some .union | some .intersection => c.grammars.take 2
  | _ => c.grammars.take 1

-- The words that the result should accept.
def Asks (c : TestCase) (word : List String) : Prop :=
  match c.asked, c.grammars with
  | none, g :: _ => g.Generates word
  | some .complement, g :: _ => ¬g.Generates word
  | some .union, g₁ :: g₂ :: _ => g₁.Generates word ∨ g₂.Generates word
  | some .intersection, g₁ :: g₂ :: _ => g₁.Generates word ∧ g₂.Generates word
  | _, _ => False

end TestCase

theorem TestCase.operands_eq {op : Operation} {gs : List Grammar} (ha : c.asked = some op)
    (hc : op ≠ .complement) (hg : c.grammars = g₁ :: g₂ :: gs) : c.operands = [g₁, g₂] := by
  cases op
  case complement => contradiction
  all_goals simp [operands, ha, hg]

-- The labels of the states of a grammar's DFA, if it has one.
def Grammar.stateLabels (g : Grammar) : List String :=
  match g.toDFA with
  | .ok d => d.states.toList
  | .error _ => []

-- A DFA that decides what a test case asks for.
structure Decides (d : DFA String) (c : TestCase) : Prop where
  valid    : d.Valid
  accepts  : ∃ g gs, c.grammars = g :: gs ∧
    ∀ w, (∀ a ∈ w, a ∈ g.terminals) → (d.accepts w = true ↔ c.Asks w)
  complete : c.asked ≠ none → d.isComplete = true

-- The DFAs of the operands recognize their languages.
theorem recognizes_of_operands (hn : ∀ g ∈ c.grammars, g.Named) (hf : ∀ g ∈ c.operands, g.Fresh)
    (hg : g ∈ c.operands) (h : g.toDFA = .ok d) : Recognizes d g := by
  have hm : g ∈ c.grammars := by
    rw [TestCase.operands] at hg
    split at hg <;> exact List.mem_of_mem_take hg
  exact (hn g hm).recognizes (hf g hg) h

theorem decides_pass {gs : List Grammar} (h : Recognizes d g) (ha : c.asked = none)
    (hg : c.grammars = g :: gs) : Decides d c where
  valid      := h.valid
  accepts    := ⟨g, gs, hg, fun w hw => by rw [h.accepts w hw, TestCase.Asks, ha, hg]⟩
  complete h := absurd ha h

theorem decides_complement {gs : List Grammar} (h : Recognizes d g)
    (ha : c.asked = some .complement) (hg : c.grammars = g :: gs) : Decides d.complement c where
  valid      := h.valid.complement
  complete _ := DFA.isComplete_complement
  accepts    := by
    refine ⟨g, gs, hg, fun w hw => ?_⟩
    have ⟨s, hs⟩ := Option.isSome_iff_exists.mp h.start
    rw [h.valid.accepts_complement hs (h.alphabet ▸ hw), TestCase.Asks, ha, hg, Bool.not_eq_true',
      ← Bool.not_eq_true, h.accepts w hw]

theorem decides_product {op : Operation} {gs : List Grammar} (h₁ : Recognizes d₁ g₁)
    (h₂ : Recognizes d₂ g₂) (hl : LeavesCode (d₁.states.toList ++ d₂.states.toList))
    (h : DFA.product op d₁.complete d₂.complete = .ok e) (ho : op ≠ .complement)
    (ha : c.asked = some op) (hg : c.grammars = g₁ :: g₂ :: gs) : Decides e c := by
  have ⟨hs, hv, hc, he⟩ := product_completed h₁ h₂ hl h
  refine ⟨hv, ⟨g₁, g₂ :: gs, hg, fun w hw => ?_⟩, fun _ => hc⟩
  have hw₂ : ∀ a ∈ w, a ∈ g₂.terminals := fun a hm => (hs a).mp (hw a hm)
  rw [he, TestCase.Asks, ha, hg]
  cases op
  case complement   => exact absurd rfl ho
  case union        =>
    exact Bool.or_eq_true_iff.trans (or_congr (h₁.accepts w hw) (h₂.accepts w hw₂))
  case intersection =>
    exact Bool.and_eq_true_iff.trans (and_congr (h₁.accepts w hw) (h₂.accepts w hw₂))

theorem Combined.decides (hn : ∀ g ∈ c.grammars, g.Named) (hf : ∀ g ∈ c.operands, g.Fresh)
    (hl : LeavesCode (c.operands.flatMap Grammar.stateLabels))
    (hd : c.grammars.mapM Grammar.toDFA = .ok dfas) (h : Combined c.asked dfas e) :
    Decides e c := by
  generalize ha : c.asked = asked at h
  cases h
  case pass ds =>
    have ⟨g, gs, hg, hgd, _⟩ := mapM_eq_ok_cons hd
    exact decides_pass
      (recognizes_of_operands hn hf (by simp [TestCase.operands, ha, hg]) hgd) ha hg
  case complement d ds =>
    have ⟨g, gs, hg, hgd, _⟩ := mapM_eq_ok_cons hd
    exact decides_complement
      (recognizes_of_operands hn hf (by simp [TestCase.operands, ha, hg]) hgd) ha hg
  case product op d₁ d₂ ds ho h =>
    have ⟨g₁, gs₁, hg, hd₁, hds⟩ := mapM_eq_ok_cons hd
    have ⟨g₂, gs, hgs, hd₂, _⟩ := mapM_eq_ok_cons hds
    have hg : c.grammars = g₁ :: g₂ :: gs := hgs ▸ hg
    have hop : c.operands = [g₁, g₂] := TestCase.operands_eq ha ho hg
    have hr₁ := recognizes_of_operands hn hf (by simp [hop]) hd₁
    have hr₂ := recognizes_of_operands hn hf (by simp [hop]) hd₂
    refine decides_product hr₁ hr₂ ?_ h ho ha hg
    simpa [hop, Grammar.stateLabels, hd₁, hd₂] using hl

theorem points_injective {s t : String} (h : Text.points s = Text.points t) : s = t :=
  String.toList_injective <| List.map_injective_iff.mpr (fun _ _ => Text.CodePoint.char.inj) h

-- What is left of a DFA, under its new labels.
structure Finished (e : DFA String) (d : DFA Text.Points) : Prop where
  accepts  : ∀ w, d.accepts w = e.accepts w
  reached  : ∀ s ∈ d.states, ∃ w, d.run d.start w = some s
  complete : e.isComplete = true → d.isComplete = true

theorem finished_of_relabel {d : DFA Text.Points} (hv : e.Valid)
    (h : TestCase.relabel e.trim ∅ = .ok d) : Finished e d := by
  let f (s : String) := Text.points ((e.trim.readableLabels.find? s).getD s)
  have hf : DFA.Relabelling e.trim f := {
    valid := hv.trim
    rows  := DFA.noStrayRow_trim
    injOn := fun _ hs _ ht he => DFA.readableLabels_injOn hs ht (points_injective he) }
  cases h.symm.trans hf.relabel_eq
  exact {
    accepts  := fun _ => hf.accepts_eq.trans hv.accepts_trim
    reached  := fun _ => hf.exists_run fun _ => hv.exists_run_trim
    complete := fun hc => hf.isComplete (hv.isComplete_trim hc) }

-- Neither the reachable part nor the readable labels change what the DFA of an operation accepts.
theorem run_correct {text : List Char} {reading : CaseFile.Reading} {d : DFA Text.Points}
    (hr : CaseFile.read text = .ok reading) (hc : c ∈ reading.cases)
    (hf : ∀ g ∈ c.operands, g.Fresh) (hl : LeavesCode (c.operands.flatMap Grammar.stateLabels))
    (h : c.run ∅ = .ok d) :
    (∃ g gs, c.grammars = g :: gs ∧
      ∀ w, (∀ a ∈ w, a ∈ g.terminals) → (d.accepts w = true ↔ c.Asks w)) ∧
    (∀ s ∈ d.states, ∃ w, d.run d.start w = some s) ∧
    (c.asked ≠ none → d.isComplete = true) := by
  have hn : ∀ g ∈ c.grammars, g.Named := fun g => CaseFile.named_of_read hr hc
  have ⟨dfas, hd, hfinish⟩ := exists_of_bind_eq_ok h
  have ⟨e, he, hrelabel⟩ := exists_of_bind_eq_ok hfinish
  have hdec : Decides e c := (combined_of_combine he).decides hn hf hl hd
  have hfin := finished_of_relabel hdec.valid hrelabel
  have ⟨g, gs, hg, hacc⟩ := hdec.accepts
  refine ⟨⟨g, gs, hg, fun w hw => ?_⟩, hfin.reached, fun ha => hfin.complete (hdec.complete ha)⟩
  rw [hfin.accepts w]
  exact hacc w hw

-- Two grammars over the same symbols, whose union is asked for.
def unionText : List Char :=
  String.toList <| "1:\nG1:\n# alphabet\nx y\n# start\nS\n# rules\nS -> xS | y\n" ++
    "G2:\n# alphabet\ny x\n# start\nAB\n# rules\nAB -> xA | ε\nA -> y\n========\nunion\n"

def unionCase : TestCase where
  id        := 1
  operation := some "union"
  grammars  := [
    { name               := "G1"
      terminals          := ["x", "y"]
      start              := some "S"
      productions        := [⟨"S", "xS"⟩, ⟨"S", "y"⟩]
      terminals_unmarked := by decide +kernel },
    { name               := "G2"
      terminals          := ["y", "x"]
      start              := some "AB"
      productions        := [⟨"AB", "xA"⟩, ⟨"AB", "ε"⟩, ⟨"A", "y"⟩]
      terminals_unmarked := by decide +kernel }]

theorem run_correct_union : CaseFile.read unionText = .ok ⟨[unionCase], []⟩ ∧
    ∃ d, unionCase.run ∅ = .ok d ∧ (d.accepts ["x", "y"] = true ↔ unionCase.Asks ["x", "y"]) ∧
      (∀ s ∈ d.states, ∃ w, d.run d.start w = some s) ∧ d.isComplete = true := by
  have hr : CaseFile.read unionText = .ok ⟨[unionCase], []⟩ := by decide +kernel
  have hf : ∀ g ∈ unionCase.operands, g.Fresh := by decide +kernel
  have hl : LeavesCode (unionCase.operands.flatMap Grammar.stateLabels) := ⟨'─', by decide +kernel⟩
  have hok : (unionCase.run ∅).isOk = true := by decide +kernel
  cases h : unionCase.run ∅
  case error => simp [h, Except.isOk, Except.toBool] at hok
  case ok d  =>
    have ⟨⟨g, gs, hg, ha⟩, hs, hc⟩ := run_correct hr (.head _) hf hl h
    have hw : ∀ a ∈ ["x", "y"], a ∈ g.terminals := by
      rw [← (List.cons.inj hg).left]
      decide +kernel
    exact ⟨hr, d, rfl, ha _ hw, hs, hc (by decide +kernel)⟩

end RightLinear
