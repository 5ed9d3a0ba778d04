import Mathlib.Data.List.Forall2
import RightLinear.Proofs.Checked

namespace RightLinear

open Grammar (Built)

variable {c : TestCase} {dfas : List (DFA String)} {op : Operation}
  {d d₁ d₂ : DFA String} {g₁ g₂ : Grammar} {e : Error} {names : RenameMap}

theorem product_eq_error_iff (h₁ : g₁.Built d₁) (h₂ : g₂.Built d₂)
    (hl : LeavesCode (d₁.states.toList ++ d₂.states.toList)) :
    DFA.product op d₁.complete d₂.complete = .error e ↔
      (¬∀ a, a ∈ g₁.terminals ↔ a ∈ g₂.terminals) ∧
        .alphabetMismatch g₁.terminals g₂.terminals op.title = e := by
  rw [← h₁.alphabet, ← h₂.alphabet]
  by_cases hs : ∀ a, a ∈ d₁.alphabet ↔ a ∈ d₂.alphabet
  case neg =>
    have hn : ¬d₁.complete.sameSymbols d₂.complete = true := fun h => hs (DFA.sameSymbols_iff.mp h)
    rw [DFA.product, if_neg hn, Except.error.injEq, and_iff_right hs]
    rfl
  case pos =>
    rw [(DFA.factors_complete h₁.valid h₂.valid h₁.start h₂.start hs hl).product_eq]
    exact iff_of_false (by simp) fun h => h.left hs

namespace TestCase

-- The operation has the name of one that there is, or no name.
def Known (c : TestCase) : Prop :=
  operationName c.operation = "" ∨ c.asked ≠ none

-- What keeps DFAs of all grammars from being combined.
inductive Uncombined (c : TestCase) : Error → Prop
  | unknown (hn : ¬c.Known) : Uncombined c (.unknownOperation (c.operation.getD ""))
  | tooFew (hn : c.Known) (hl : c.grammars.length < Operation.arity c.asked) :
    Uncombined c (.grammarCount (c.asked.elim "pass-through" Operation.title)
      (Operation.arity c.asked) c.grammars.length)
  | mismatch {op : Operation} {g₁ g₂ : Grammar} {gs : List Grammar} (ha : c.asked = some op)
    (hc : op ≠ .complement) (hg : c.grammars = g₁ :: g₂ :: gs)
    (hs : ¬∀ a, a ∈ g₁.terminals ↔ a ∈ g₂.terminals) :
    Uncombined c (.alphabetMismatch g₁.terminals g₂.terminals op.title)

-- Why a test case has no result; of its grammars the first that is refused counts.
inductive Fails (c : TestCase) : Error → Prop
  | refused {before after : List Grammar} {g : Grammar} {e : Error}
    (hg : c.grammars = before ++ g :: after) (hb : ∀ g ∈ before, g.Buildable) (h : g.Refused e) :
    Fails c e
  | uncombined {e : Error} (hg : ∀ g ∈ c.grammars, g.Buildable) (h : c.Uncombined e) : Fails c e

theorem exists_built {gs : List Grammar} (hm : c.grammars.mapM Grammar.toDFA = .ok dfas)
    (hl : LeavesCode (c.operands.flatMap Grammar.stateLabels)) (ha : c.asked = some op)
    (hc : op ≠ .complement) (hg : c.grammars = g₁ :: g₂ :: gs) :
    ∃ d₁ d₂ ds, dfas = d₁ :: d₂ :: ds ∧ g₁.Built d₁ ∧ g₂.Built d₂ ∧
      LeavesCode (d₁.states.toList ++ d₂.states.toList) := by
  have hop := operands_eq ha hc hg
  rw [hg] at hm
  have ⟨d₁, _, h₁, hm, hd⟩ := mapM_cons_eq_ok_iff.mp hm
  have ⟨d₂, ds, h₂, _, hds⟩ := mapM_cons_eq_ok_iff.mp hm
  refine ⟨d₁, d₂, ds, by rw [← hd, ← hds], Grammar.built_of_toDFA h₁, Grammar.built_of_toDFA h₂, ?_⟩
  simpa [hop, Grammar.stateLabels, h₁, h₂] using hl

theorem combine_eq_error_iff (hm : c.grammars.mapM Grammar.toDFA = .ok dfas)
    (hl : LeavesCode (c.operands.flatMap Grammar.stateLabels)) :
    combine dfas c.operation = .error e ↔ c.Uncombined e := by
  have hn : dfas.length = c.grammars.length := length_of_mapM_eq_ok hm
  constructor
  case mp =>
    intro h
    by_cases hk : c.Known
    case neg =>
      have ⟨he, ha⟩ := not_or.mp hk
      rw [combine_unknown he (not_not.mp ha)] at h
      exact Except.error.inj h ▸ .unknown hk
    case pos =>
      by_cases ha : dfas.length < Operation.arity c.asked
      case pos =>
        rw [combine_tooFew hk ha] at h
        rw [hn] at h ha
        exact Except.error.inj h ▸ .tooFew hk ha
      case neg =>
        have ⟨op, d₁, d₂, ds, ho, hc, hd, h⟩ := product_of_combine_eq_error hk (Nat.not_lt.mp ha) h
        have ⟨g₁, _, hg, _, hds⟩ := mapM_eq_ok_cons (hd ▸ hm)
        have ⟨g₂, gs, hgs, _⟩ := mapM_eq_ok_cons hds
        have hg : c.grammars = g₁ :: g₂ :: gs := hgs ▸ hg
        have ⟨_, _, _, hd', h₁, h₂, hcode⟩ := exists_built hm hl ho hc hg
        cases hd.symm.trans hd'
        have ⟨hs, he⟩ := (product_eq_error_iff h₁ h₂ hcode).mp h
        exact he ▸ .mismatch ho hc hg hs
  case mpr =>
    intro h
    cases h
    case unknown hk =>
      have ⟨he, ha⟩ := not_or.mp hk
      exact combine_unknown he (not_not.mp ha)
    case tooFew hk ha =>
      rw [← hn] at ha ⊢
      exact combine_tooFew hk ha
    case mismatch ha hc hg hs =>
      have ⟨d₁, d₂, ds, hd, h₁, h₂, hcode⟩ := exists_built hm hl ha hc hg
      rw [combine_product ha hc, hd]
      exact (product_eq_error_iff h₁ h₂ hcode).mpr ⟨hs, rfl⟩

theorem exists_relabel_eq : ∃ f, relabel d names = d.relabel f := by
  rw [relabel]
  split <;> exact ⟨_, rfl⟩

theorem exists_relabel_trim : ∃ f, relabel d.trim names = .ok (d.trim.relabelled f) :=
  have ⟨f, hf⟩ := exists_relabel_eq
  ⟨f, hf.trans (DFA.relabel_eq_ok_iff.mpr ⟨DFA.noStrayRow_trim, rfl⟩)⟩

theorem finish_eq_error_iff : c.finish dfas names = .error e ↔
    combine dfas c.operation = .error e := by
  rw [finish, bind_eq_error_iff, or_iff_left]
  rintro ⟨d, _, h⟩
  obtain ⟨f, hf⟩ := @exists_relabel_trim d names
  cases h.symm.trans hf

-- Nothing else goes wrong, neither on the way nor under the new labels.
theorem run_eq_error_iff (hl : LeavesCode (c.operands.flatMap Grammar.stateLabels)) :
    c.run names = .error e ↔ c.Fails e := by
  rw [run, bind_eq_error_iff, mapM_eq_error_iff]
  simp only [Grammar.exists_toDFA_iff, Grammar.toDFA_eq_error_iff, finish_eq_error_iff]
  constructor
  case mp =>
    intro h
    cases h
    case inl h =>
      obtain ⟨_, _, _, hg, hb, h⟩ := h
      exact .refused hg hb h
    case inr h =>
      obtain ⟨dfas, hm, h⟩ := h
      refine .uncombined (fun g hg => ?_) ((combine_eq_error_iff hm hl).mp h)
      obtain ⟨d, _, hd⟩ := forall_of_mapM_eq_ok hm g hg
      exact Grammar.exists_toDFA_iff.mp ⟨d, hd⟩
  case mpr =>
    intro h
    cases h
    case refused hg hb h => exact .inl ⟨_, _, _, hg, hb, h⟩
    case uncombined hg h =>
      obtain ⟨dfas, hm⟩ := exists_mapM_eq_ok fun g h => Grammar.exists_toDFA_iff.mpr (hg g h)
      exact .inr ⟨dfas, hm, (combine_eq_error_iff hm hl).mpr h⟩

theorem valid_of_run {d : DFA Text.Points} (h : c.run names = .ok d) : d.Valid := by
  have ⟨dfas, hm, h⟩ := exists_of_bind_eq_ok h
  have ⟨e, he, h⟩ := exists_of_bind_eq_ok h
  have hv := (combined_of_combine he).valid (valid_of_mapM_toDFA hm)
  have ⟨f, hf⟩ := @exists_relabel_trim e names
  cases h.symm.trans hf
  exact hv.trim.relabelled f

theorem exists_run_eq_ok (hl : LeavesCode (c.operands.flatMap Grammar.stateLabels))
    (h : ∀ e, ¬c.Fails e) : ∃ d, c.run names = .ok d ∧ d.Valid := by
  cases hr : c.run names
  case error e => exact absurd ((run_eq_error_iff hl).mp hr) (h e)
  case ok d    => exact ⟨d, rfl, valid_of_run hr⟩

-- No error comes from the middle of a construction.
theorem Fails.reachable (h : c.Fails e) : (∀ s, e ≠ .strayRow s) ∧
    (∀ s a name, e ≠ .notComplete s a name) ∧
      ∀ f, e = .invalid f → ∃ name, f = .noStartSymbol name := by
  cases h
  case refused h =>
    cases h
    case noStart    => exact ⟨nofun, nofun, fun f hf => ⟨_, (Error.invalid.inj hf).symm⟩⟩
    case production => exact ⟨nofun, nofun, nofun⟩
  case uncombined h => cases h <;> exact ⟨nofun, nofun, nofun⟩

end TestCase

theorem runBatch_results (cases : List TestCase) (maps : Table Int RenameMap)
    (hl : ∀ c ∈ cases, LeavesCode (c.operands.flatMap Grammar.stateLabels)) :
    List.Forall₂ (fun c o => o.id = c.id ∧ o.result = c.checkedRun (namesFor maps c) ∧
        (∀ e, o.result = .error e ↔ c.Fails e) ∧
        ((∀ e, ¬c.Fails e) → ∃ d, o.result = .ok d ∧ d.Valid)) cases (runBatch cases maps) ∧
      ∀ o ∈ runBatch cases maps, ∀ e, o.result = .error e →
        (∀ s, e ≠ .strayRow s) ∧ (∀ s a name, e ≠ .notComplete s a name) ∧
          ∀ f, e = .invalid f → ∃ name, f = .noStartSymbol name := by
  constructor
  case left =>
    rw [runBatch, List.forall₂_map_right_iff, List.forall₂_same]
    intro c hc
    have hl := hl c hc
    exact ⟨rfl, TestCase.checkedRun_eq.symm, fun _ => TestCase.run_eq_error_iff hl,
      TestCase.exists_run_eq_ok hl⟩
  case right =>
    intro o ho e he
    have ⟨c, hc, hr⟩ := List.mem_map.mp ho
    subst hr
    exact ((TestCase.run_eq_error_iff (hl c hc)).mp he).reachable

-- A test case for each way to fail, the second of them in three ways, and one that gives two states
-- one label.
def mixedBatch : List TestCase :=
  let g := Grammar.selfNamed
  [{ id := 1, grammars := [g, { name := "G2" }] },
    { id := 2, grammars := [g.addProduction "S" "abS", { name := "G2" }], operation := some "mix" },
    { id := 3, grammars := [g], operation := some "mix" },
    { id := 4, grammars := [g], operation := some " UNION\t" },
    { unionCase with id := 5, grammars := g :: unionCase.grammars },
    { unionCase with id := 6 }]

def mixedMaps : Table Int RenameMap :=
  let names := [("S_A", "T"), ("S_DEAD", "T")]
  .ofList [(6, .ofList (names.map fun (old, new) => (Text.points old, Text.points new)))]

theorem runBatch_results_mixed :
    (∀ c ∈ mixedBatch, LeavesCode (c.operands.flatMap Grammar.stateLabels)) ∧
    List.Forall₂ (fun c o => ∀ e, o.result = .error e ↔ c.Fails e) mixedBatch
      (runBatch mixedBatch mixedMaps) ∧
    (runBatch mixedBatch mixedMaps).map
        (fun o => match o.result with | .ok _ => none | .error e => some e) =
      [some (.invalid (.noStartSymbol "G2")), some (.unsupported "S" "abS" .shape),
        some (.unknownOperation "mix"), some (.grammarCount "union" 2 1),
        some (.alphabetMismatch ["a", "b"] ["x", "y"] "union"), none] := by
  have hc : ∀ c ∈ mixedBatch, ∀ s ∈ c.operands.flatMap Grammar.stateLabels, '─' ∉ s.toList := by
    decide +kernel
  have hl : ∀ c ∈ mixedBatch, LeavesCode (c.operands.flatMap Grammar.stateLabels) :=
    fun c h => ⟨'─', by decide, by decide, hc c h⟩
  have ⟨hr, _⟩ := runBatch_results mixedBatch mixedMaps hl
  exact ⟨hl, hr.imp fun _ _ h => h.right.right.left, by decide +kernel⟩

end RightLinear
