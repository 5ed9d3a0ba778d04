import RightLinear.CaseFile.Reader
import RightLinear.Proofs.Grammar.Subsets

namespace RightLinear.CaseFile

variable {g g' : Grammar} {r r' : Reader} {c : TestCase} {item : Item} {line : Nat}
  {text raw : List Char} {name : String}

-- What a line says, without the blanks around it.
inductive Says (text : List Char) : Item → Prop
  | blank (h : text = []) : Says text .blank
  | caseHeader {digits : List Char} {id : Nat} (hd : caseDigits? text = some digits)
    (hn : Text.natural digits = .ok id) : Says text (.caseHeader id)
  | grammarHeader {name : String} (hn : grammarName? text = some name) :
    Says text (.grammarHeader name)
  | grammarEnd (h : text = grammarEndMark) : Says text .grammarEnd
  | sectionHeader (h : text.head? = some '#') : Says text (.sectionHeader (Section.ofLine? text))
  | payload (hd : caseDigits? text = none) (hn : grammarName? text = none)
    (he : text ≠ grammarEndMark) (hh : text.head? ≠ some '#') : Says text (.payload text)

theorem says_of_ofLine (h : Item.ofLine raw = .ok item) : Says (Text.trim raw) item := by
  simp only [Item.ofLine] at h
  split at h
  case isTrue hb => exact Except.ok.inj h ▸ .blank (List.isEmpty_iff.mp hb)
  case isFalse   =>
    split at h
    case h_1 digits hd =>
      cases hn : Text.natural digits
      case error => simp [hn, Except.map] at h
      case ok id =>
        rw [hn] at h
        exact Except.ok.inj h ▸ .caseHeader hd hn
    case h_2 hd =>
      split at h
      case h_1 hn => exact Except.ok.inj h ▸ .grammarHeader hn
      case h_2 hn =>
        split at h
        case isTrue he  => exact Except.ok.inj h ▸ .grammarEnd he
        case isFalse he =>
          split at h
          case isTrue hh  => exact Except.ok.inj h ▸ .sectionHeader hh
          case isFalse hh => exact Except.ok.inj h ▸ .payload hd hn he hh

theorem head_of_grammarName? (h : grammarName? text = some name) :
    name.toList.head? = some 'G' := by
  have ⟨cs, _, hn⟩ := Option.bind_eq_some_iff.mp h
  have ⟨hc, hn⟩ := Option.ite_none_right_eq_some.mp hn
  rw [← Option.some.inj hn, String.toList_ofList]
  simpa using (Bool.and_eq_true_iff.mp hc).left

variable {β : Type} {p : Grammar → β}

-- What has nothing to do with the terminals stays as it is when one is added.
theorem part_addTerminal {a : String} (h : ∀ as hn hm,
    p { g with terminals := as, terminals_nodup := hn, terminals_unmarked := hm } = p g) :
    p (g.addTerminal a) = p g := by
  rw [Grammar.addTerminal]
  split
  case isTrue  => rfl
  case isFalse => exact h ..

theorem part_addNonTerminal {a : String} (h : ∀ as, p { g with nonTerminals := as } = p g) :
    p (g.addNonTerminal a) = p g := by
  rw [Grammar.addNonTerminal]
  split
  case isTrue  => rfl
  case isFalse => exact h _

theorem part_foldl {α : Type} {f : Grammar → α → Grammar} {l : List α}
    (h : ∀ g a, p (f g a) = p g) : p (l.foldl f g) = p g := by
  induction l generalizing g
  case nil         => rfl
  case cons a l hi => exact hi.trans (h g a)

theorem name_fill {s : Section} (h : Reader.fill g s text = some g') : g'.name = g.name := by
  cases s <;> simp only [Reader.fill, Option.some.injEq, Option.map_eq_some_iff] at h
  case alphabet     => exact h ▸ part_foldl fun _ _ => part_addTerminal fun _ _ _ => rfl
  case nonTerminals => exact h ▸ part_foldl fun _ _ => part_addNonTerminal fun _ => rfl
  case start        => exact h ▸ rfl
  case operation    => exact h ▸ rfl
  case rules        =>
    have ⟨rule, _, h⟩ := h
    exact h ▸ part_foldl fun _ _ => rfl

-- What is said about a line that is skipped.
inductive Skips (n : Nat) (text : List Char) : Notice → Prop
  | operation  : Skips n text (.operationOutside n)
  | unexpected : Skips n text (.unexpected n (.ofList text))
  | rule       : Skips n text (.invalidRule n (.ofList text))

-- The open section is for the operation of a test case that has one.
def Reader.Repeats (r : Reader) : Prop :=
  r.opened = some .operation ∧ ∃ c, r.current = some c ∧ c.operation ≠ none

-- What can become of a line that is neither a header nor the end of a grammar.
inductive Handled (r : Reader) (n : Nat) (text : List Char) : Reader × Option Notice → Prop
  | operation {c : TestCase} (hc : r.current = some c) (ho : c.operation = none) :
    Handled r n text ({ r with current := some (Reader.setOperation c text) }, none)
  | filled {g g' : Grammar} {s : Section} (hg : r.grammar = some g) (hs : r.opened = some s)
    (hn : s ≠ .operation) (hf : Reader.fill g s text = some g') :
    Handled r n text ({ r with grammar := some g' }, none)
  | repeated (hr : r.Repeats) : Handled r n text (r, none)
  | skipped {notice : Notice} (hs : Skips n text notice) : Handled r n text (r, some notice)

theorem handled_readPayload : Handled r line text (r.readPayload line text) := by
  rw [Reader.readPayload]
  split
  case h_1         => exact .skipped .operation
  case h_2 c hs hc =>
    by_cases ho : c.operation = none
    case pos => exact .operation hc ho
    case neg =>
      have same : { r with current := some (Reader.setOperation c text) } = r := by
        rw [Reader.setOperation, if_neg ho, ← hc]
      rw [same]
      exact .repeated ⟨hs, c, hc, ho⟩
  case h_3 s g hs hg hnone hsome =>
    have hn : s ≠ .operation := by
      intro he
      cases hc : r.current
      case none   => exact hnone hc he
      case some c => exact hsome c hc he
    split
    case h_1 hf => exact .filled hg hs hn hf
    case h_2    => exact .skipped .rule
  case h_4 c _ hc _ =>
    split
    case isTrue ho => exact .operation hc ho
    case isFalse   => exact .skipped .unexpected
  case h_5 => exact .skipped .unexpected

section

variable {L : List Char → Prop} {G : Grammar → Prop} {O : String → Prop}

-- What lines of a kind give to the grammars and the operations that are read from them.
structure Gives (L : List Char → Prop) (G : Grammar → Prop) (O : String → Prop) : Prop where
  header {raw : List Char} {name : String} (hl : L raw)
    (hn : grammarName? (Text.trim raw) = some name) : G { name }
  fill {raw : List Char} {g g' : Grammar} {s : Section} (hl : L raw) (hg : G g)
    (hf : Reader.fill g s (Text.trim raw) = some g') : G g'
  operation {raw : List Char} (hl : L raw) : O (.ofList (Text.trim raw))

structure Holds (G : Grammar → Prop) (O : String → Prop) (c : TestCase) : Prop where
  grammars  : ∀ g ∈ c.grammars, G g
  operation : ∀ o, c.operation = some o → O o

-- All that the reader keeps has what it should have.
structure Sound (G : Grammar → Prop) (O : String → Prop) (r : Reader) : Prop where
  finished : ∀ c ∈ r.finished, Holds G O c
  current  : ∀ c, r.current = some c → Holds G O c
  grammar  : ∀ g, r.grammar = some g → G g

theorem Holds.setOperation (h : Holds G O c) (ho : O (.ofList text)) :
    Holds G O (Reader.setOperation c text) := by
  rw [Reader.setOperation]
  split
  case isTrue  => exact ⟨h.grammars, fun _ he => Option.some.inj he ▸ ho⟩
  case isFalse => exact h

namespace Sound

theorem closeGrammar (h : Sound G O r) : Sound G O r.closeGrammar where
  finished := h.finished
  grammar  := nofun
  current c hc := by
    have ⟨c', hc', he⟩ := Option.map_eq_some_iff.mp hc
    have hh := h.current c' hc'
    rw [← he]
    refine ⟨fun g hg => ?_, hh.operation⟩
    cases List.mem_append.mp hg
    case inl hg => exact hh.grammars g hg
    case inr hg => exact h.grammar g (Option.mem_toList.mp hg)

theorem closeCase (h : Sound G O r) : Sound G O r.closeCase where
  current := nofun
  grammar := nofun
  finished c hc := by
    cases List.mem_append.mp hc
    case inl hc => exact h.closeGrammar.current c (Option.mem_toList.mp hc)
    case inr hc => exact h.finished c hc

theorem setOperation (h : Sound G O r) (hc : r.current = some c) (ho : O (.ofList text)) :
    Sound G O { r with current := some (Reader.setOperation c text) } where
  finished      := h.finished
  grammar       := h.grammar
  current _ hc' := Option.some.inj hc' ▸ (h.current c hc).setOperation ho

theorem readPayload (hk : Gives L G O) (h : Sound G O r) (hl : L raw) :
    Sound G O (r.readPayload line (Text.trim raw)).1 := by
  have handled : Handled r line (Text.trim raw) (r.readPayload line (Text.trim raw)) :=
    handled_readPayload
  generalize r.readPayload line (Text.trim raw) = step at handled
  cases handled
  case operation hc _     => exact h.setOperation hc (hk.operation hl)
  case repeated           => exact h
  case skipped            => exact h
  case filled hg _ _ hf   =>
    exact ⟨h.finished, h.current, fun _ he => Option.some.inj he ▸ hk.fill hl (h.grammar _ hg) hf⟩

theorem read (hk : Gives L G O) (h : Sound G O r) (hl : L raw) (hi : Item.ofLine raw = .ok item) :
    Sound G O (r.read line item).1 := by
  cases says_of_ofLine hi
  case blank            => exact h
  case caseHeader       =>
    have hc {id : Int} : Holds G O { id } := ⟨nofun, nofun⟩
    exact ⟨h.closeCase.finished, fun _ he => Option.some.inj he ▸ hc, nofun⟩
  case grammarHeader hn =>
    exact ⟨h.closeGrammar.finished, h.closeGrammar.current,
      fun _ he => Option.some.inj he ▸ hk.header hl hn⟩
  case grammarEnd       => exact h.closeGrammar
  case sectionHeader    => exact ⟨h.finished, h.current, h.grammar⟩
  case payload          => exact h.readPayload hk hl

theorem readLines {lines : List (List Char)} {notices : List Notice} (hk : Gives L G O)
    (h : Sound G O r) (hl : ∀ l ∈ lines, L l) (hr : r.readLines line lines = .ok (r', notices)) :
    Sound G O r' := by
  induction lines generalizing r line notices
  case nil =>
    cases hr
    exact h
  case cons l lines hi =>
    have ⟨hl, hls⟩ := List.forall_mem_cons.mp hl
    rw [Reader.readLines] at hr
    split at hr
    case h_1 => cases hr
    case h_2 item ho =>
      have hs : Sound G O (r.read line item).1 := h.read hk hl ho
      generalize r.read line item = step at hr hs
      simp only at hr
      split at hr
      case h_1 => cases hr
      case h_2 hrest =>
        cases hr
        exact hi hs hls hrest

end Sound

-- A grammar is filled one line at a time and an operation is a line, so what all lines give to them
-- they have.
theorem holds_of_read {reading : Reading} (hk : Gives L G O) (hl : ∀ l ∈ Text.lines text, L l)
    (h : read text = .ok reading) (hc : c ∈ reading.cases) : Holds G O c := by
  rw [read] at h
  split at h
  case h_1 => cases h
  case h_2 r _ hr =>
    cases h
    have empty : Sound G O {} := ⟨nofun, nofun, nofun⟩
    exact (empty.readLines hk hl hr).closeCase.finished c (List.mem_reverse.mp hc)

end

theorem gives_named : Gives (fun _ => True) Grammar.Named (fun _ => True) where
  header _ hn  := head_of_grammarName? hn
  fill _ hg hf := by
    rw [Grammar.Named, name_fill hf]
    exact hg
  operation _  := trivial

-- Only a line that begins with a G opens a grammar, and no later line renames it.
theorem named_of_read {text : List Char} {reading : Reading} {c : TestCase}
    (h : read text = .ok reading) (hc : c ∈ reading.cases) (hg : g ∈ c.grammars) : g.Named :=
  (holds_of_read gives_named (fun _ _ => trivial) h hc).grammars g hg

end RightLinear.CaseFile
