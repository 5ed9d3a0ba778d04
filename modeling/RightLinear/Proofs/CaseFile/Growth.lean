import Mathlib.Logic.Relation
import RightLinear.Proofs.CaseFile.Append

namespace RightLinear

section

variable {α : Type} {R : α → α → Prop} {l l' l'' m m' : List α} {a b : α}

-- Every element is related to the one at its place in the second list.
def ExtendedBy (R : α → α → Prop) (l l' : List α) : Prop :=
  ∀ (i : Nat) a, l[i]? = some a → ∃ b, l'[i]? = some b ∧ R a b

namespace ExtendedBy

theorem refl (hr : ∀ a, R a a) : ExtendedBy R l l :=
  fun _ a h => ⟨a, h, hr a⟩

theorem trans (ht : ∀ {a b c}, R a b → R b c → R a c) (h : ExtendedBy R l l')
    (h' : ExtendedBy R l' l'') : ExtendedBy R l l'' := by
  intro i a ha
  have ⟨b, hb, hab⟩ := h i a ha
  have ⟨c, hc, hbc⟩ := h' i b hb
  exact ⟨c, hc, ht hab hbc⟩

theorem append (hr : ∀ a, R a a) (h : ExtendedBy R m m') : ExtendedBy R (l ++ m) (l ++ m') := by
  intro i a ha
  by_cases hi : i < l.length
  case pos =>
    rw [List.getElem?_append_left hi] at ha ⊢
    exact ⟨a, ha, hr a⟩
  case neg =>
    rw [List.getElem?_append_right (Nat.le_of_not_lt hi)] at ha ⊢
    exact h _ a ha

theorem nil : ExtendedBy R [] l :=
  nofun

theorem append_right (hr : ∀ a, R a a) : ExtendedBy R l (l ++ m) := by
  simpa using nil.append (l := l) hr

theorem singleton (h : R a b) : ExtendedBy R [a] [b] := by
  intro i a' ha
  cases i
  case zero => exact ⟨b, rfl, Option.some.inj ha ▸ h⟩
  case succ => cases ha

end ExtendedBy
end

-- A grammar that keeps what another has declared, in the same order.
structure Grammar.Keeps (g g' : Grammar) : Prop where
  name         : g.name = g'.name
  terminals    : g.terminals <+: g'.terminals
  nonTerminals : g.nonTerminals <+: g'.nonTerminals
  productions  : g.productions <+: g'.productions

namespace Grammar.Keeps

variable {g g' g'' : Grammar} {a left right : String}

theorem refl (g : Grammar) : g.Keeps g :=
  ⟨rfl, List.prefix_rfl, List.prefix_rfl, List.prefix_rfl⟩

theorem trans (h : g.Keeps g') (h' : g'.Keeps g'') : g.Keeps g'' where
  name         := h.name.trans h'.name
  terminals    := h.terminals.trans h'.terminals
  nonTerminals := h.nonTerminals.trans h'.nonTerminals
  productions  := h.productions.trans h'.productions

theorem addTerminal : g.Keeps (g.addTerminal a) := by
  rw [Grammar.addTerminal]
  split
  case isTrue  => exact refl g
  case isFalse => exact ⟨rfl, List.prefix_append .., List.prefix_rfl, List.prefix_rfl⟩

theorem addNonTerminal : g.Keeps (g.addNonTerminal a) := by
  rw [Grammar.addNonTerminal]
  split
  case isTrue  => exact refl g
  case isFalse => exact ⟨rfl, List.prefix_rfl, List.prefix_append .., List.prefix_rfl⟩

theorem addProduction : g.Keeps (g.addProduction left right) :=
  ⟨rfl, List.prefix_rfl, List.prefix_rfl, List.prefix_append ..⟩

theorem foldl {α : Type} {f : Grammar → α → Grammar} {l : List α}
    (h : ∀ (g : Grammar) a, g.Keeps (f g a)) : g.Keeps (l.foldl f g) :=
  List.foldlRecOn _ _ (refl g) fun _ hg _ _ => hg.trans (h ..)

end Grammar.Keeps

namespace CaseFile

variable {g g' : Grammar} {c c' c'' : TestCase} {r r' last : Reader} {item : Item} {k : Nat}
  {l text : List Char} {ls ms : List (List Char)} {notice : Notice} {notices : List Notice}

-- One grammar becomes another by a line in one of its sections.
def Filled (g g' : Grammar) : Prop :=
  ∃ s text, Reader.fill g s text = some g'

-- One grammar becomes another by lines in its sections.
def Grows : Grammar → Grammar → Prop :=
  Relation.ReflTransGen Filled

theorem Filled.keeps : Filled g g' → g.Keeps g' := by
  rintro ⟨s, text, h⟩
  cases s <;> simp only [Reader.fill, Option.some.injEq, Option.map_eq_some_iff] at h
  case alphabet     => exact h ▸ .foldl fun _ _ => .addTerminal
  case nonTerminals => exact h ▸ .foldl fun _ _ => .addNonTerminal
  case start        => exact h ▸ ⟨rfl, List.prefix_rfl, List.prefix_rfl, List.prefix_rfl⟩
  case operation    => exact h ▸ .refl g
  case rules        =>
    obtain ⟨_, _, h⟩ := h
    exact h ▸ .foldl fun _ _ => .addProduction

-- Of what is declared in a section only the start symbol can be replaced.
theorem Grows.keeps (h : Grows g g') : g.Keeps g' := by
  induction h
  case refl       => exact .refl g
  case tail hf hi => exact hi.trans hf.keeps

-- A test case after more lines.
structure Grown (c c' : TestCase) : Prop where
  id        : c'.id = c.id
  operation : ∀ o, c.operation = some o → c'.operation = some o
  grammars  : ExtendedBy Grows c.grammars c'.grammars

theorem Grown.refl (c : TestCase) : Grown c c :=
  ⟨rfl, fun _ h => h, .refl fun _ => .refl⟩

theorem Grown.trans (h : Grown c c') (h' : Grown c' c'') : Grown c c'' where
  id             := h'.id.trans h.id
  operation o ho := h'.operation o (h.operation o ho)
  grammars       := h.grammars.trans .trans h'.grammars

theorem Grown.withGrammars {gs gs' : List Grammar} (h : Grown c c') (hg : ExtendedBy Grows gs gs') :
    Grown { c with grammars := gs } { c' with grammars := gs' } :=
  ⟨h.id, h.operation, hg⟩

theorem grown_setOperation (ho : c.operation = none) : Grown c (Reader.setOperation c text) := by
  rw [Reader.setOperation, if_pos ho]
  exact ⟨rfl, fun _ h => absurd (h.symm.trans ho) (Option.some_ne_none _), .refl fun _ => .refl⟩

-- The test cases so far, each with all of its grammars so far.
abbrev Reader.ExtendedBy (r r' : Reader) : Prop :=
  RightLinear.ExtendedBy Grown r.cases r'.cases

namespace Reader

theorem setOperation_grammars : (setOperation c text).grammars = c.grammars := by
  rw [setOperation]
  split <;> rfl

-- The open test case with all of its grammars.
def openCase (r : Reader) : Option TestCase :=
  r.closeGrammar.current

theorem cases_eq : r.cases = r.finished.reverse ++ r.openCase.toList := by
  rw [cases, closeCase, openCase]
  cases r.closeGrammar.current <;> simp [closeGrammar]

theorem getElem?_cases : r.cases[r.finished.length]? = r.openCase := by
  rw [cases_eq, List.getElem?_append_right (by simp)]
  cases r.openCase <;> simp

-- Only the open test case can have changed.
theorem ExtendedBy.of_openCase (hf : r'.finished = r.finished)
    (h : RightLinear.ExtendedBy Grown r.openCase.toList r'.openCase.toList) : r.ExtendedBy r' := by
  rw [Reader.ExtendedBy, cases_eq, cases_eq, hf]
  exact h.append .refl

theorem openCase_of_some (hc : r.current = some c) :
    r.openCase = some { c with grammars := c.grammars ++ r.grammar.toList } := by
  rw [openCase, closeGrammar, hc]
  rfl

theorem openCase_of_none (hc : r.current = none) : r.openCase = none := by
  rw [openCase, closeGrammar, hc]
  rfl

theorem openCase_closeGrammar : r.closeGrammar.openCase = r.openCase := by
  cases hc : r.openCase
  case none   => exact openCase_of_none hc
  case some c =>
    rw [openCase_of_some hc]
    exact congrArg (fun gs => some { c with grammars := gs }) (List.append_nil _)

end Reader

theorem extendedBy_of_handled {step : Reader × Option Notice} (h : Handled r k text step) :
    r.ExtendedBy step.1 := by
  cases h
  case operation c hc ho =>
    refine .of_openCase rfl ?_
    rw [Reader.openCase_of_some hc, Reader.openCase_of_some rfl, Reader.setOperation_grammars]
    exact .singleton <| (grown_setOperation ho).withGrammars <| .refl fun _ => .refl
  case filled g g' s hg hs _ hf =>
    refine .of_openCase rfl ?_
    cases hc : r.current
    case none   =>
      rw [Reader.openCase_of_none hc]
      exact .nil
    case some c =>
      have grows : Grows g g' := .single ⟨s, text, hf⟩
      rw [Reader.openCase_of_some hc, Reader.openCase_of_some rfl, hg]
      exact .singleton <| (Grown.refl c).withGrammars <| .append (fun _ => .refl) <| .singleton grows
  case repeated => exact .refl .refl
  case skipped  => exact .refl .refl

theorem extendedBy_read : r.ExtendedBy (r.read k item).1 := by
  cases item
  case blank            => exact .refl .refl
  case sectionHeader    => exact .refl .refl
  case payload          => exact extendedBy_of_handled handled_readPayload
  case caseHeader id    =>
    have added : (r.read k (.caseHeader id)).1.cases = r.cases ++ [{ id := id }] := by
      rw [Reader.cases_eq]
      rfl
    rw [Reader.ExtendedBy, added]
    exact .append_right .refl
  case grammarHeader n  =>
    refine .of_openCase rfl ?_
    cases hc : r.openCase
    case none   => exact .nil
    case some c =>
      rw [Reader.openCase_of_some (show (r.read k (.grammarHeader n)).1.current = some c from hc)]
      exact .singleton <| (Grown.refl c).withGrammars <| .append_right fun _ => .refl
  case grammarEnd       =>
    refine .of_openCase rfl ?_
    rw [show (r.read k .grammarEnd).1.openCase = r.openCase from Reader.openCase_closeGrammar]
    exact .refl .refl

-- Each test case keeps its place, its id, and its operation once it has one, and its grammars
-- change by lines in their sections only.
theorem extendedBy_readLines (h : r.readLines k ls = .ok (r', notices)) : r.ExtendedBy r' := by
  induction ls generalizing r k notices
  case nil =>
    cases h
    exact .refl .refl
  case cons l ls hi =>
    rw [readLines_cons] at h
    split at h
    case h_1 => cases h
    case h_2 =>
      have ⟨_, hr, _⟩ := noting_eq_ok_iff.mp h
      exact extendedBy_read.trans .trans (hi hr)

theorem line_of_handled {step : Reader × Option Notice} (h : Handled r k text step) :
    ∀ notice ∈ step.2, notice.line = k := by
  rintro notice (hn : step.2 = some notice)
  cases h
  case skipped hs =>
    cases hn
    cases hs <;> rfl
  all_goals cases hn

theorem line_of_read : ∀ notice ∈ (r.read k item).2, notice.line = k := by
  cases item
  case payload          => exact line_of_handled handled_readPayload
  case grammarHeader n  =>
    rintro notice (hn : (if r.current.isNone then _ else _) = some notice)
    split at hn
    case isTrue  => exact Option.some.inj hn ▸ rfl
    case isFalse => cases hn
  all_goals nofun

theorem line_of_readLines (h : r.readLines k ls = .ok (r', notices)) :
    ∀ notice ∈ notices, k ≤ notice.line ∧ notice.line < k + ls.length := by
  induction ls generalizing r k notices
  case nil =>
    cases h
    nofun
  case cons l ls hi =>
    rw [readLines_cons] at h
    split at h
    case h_1 => cases h
    case h_2 =>
      obtain ⟨later, hr, rfl⟩ := noting_eq_ok_iff.mp h
      intro notice hm
      rw [List.length_cons]
      rcases List.mem_append.mp hm with hm | hm
      · have := line_of_read _ (Option.mem_toList.mp hm)
        omega
      · have := hi hr _ hm
        omega

-- The notices that have the number of a line.
def noticesOf (k : Nat) (notices : List Notice) : List Notice :=
  notices.filter (·.line = k)

theorem noticesOf_append {earlier later : List Notice} :
    noticesOf k (earlier ++ later) = noticesOf k earlier ++ noticesOf k later :=
  List.filter_append ..

theorem noticesOf_eq_nil (h : ∀ notice ∈ notices, notice.line ≠ k) : noticesOf k notices = [] :=
  List.filter_eq_nil_iff.mpr fun notice hm => by simpa using h notice hm

theorem noticesOf_eq_nil_of_lt {n : Nat} (h : r.readLines k ls = .ok (r', notices)) (hn : n < k) :
    noticesOf n notices = [] := by
  refine noticesOf_eq_nil fun notice hm => ?_
  have := line_of_readLines h notice hm
  omega

theorem noticesOf_eq_nil_of_le {n : Nat} (h : r.readLines k ls = .ok (r', notices))
    (hn : k + ls.length ≤ n) : noticesOf n notices = [] := by
  refine noticesOf_eq_nil fun notice hm => ?_
  have := line_of_readLines h notice hm
  omega

theorem noticesOf_read : noticesOf k (r.read k item).2.toList = (r.read k item).2.toList := by
  refine List.filter_eq_self.mpr fun notice hm => ?_
  exact decide_eq_true (line_of_read _ (Option.mem_toList.mp hm))

theorem exists_of_readLines (h : r.readLines k (ls ++ l :: ms) = .ok (last, notices)) :
    ∃ before earlier item later,
      r.readLines k ls = .ok (before, earlier) ∧ Item.ofLine l = .ok item ∧
      (before.read (k + ls.length) item).1.readLines (k + ls.length + 1) ms = .ok (last, later) ∧
      earlier ++ ((before.read (k + ls.length) item).2.toList ++ later) = notices := by
  rw [readLines_append] at h
  split at h
  case h_1 => cases h
  case h_2 before earlier hb =>
    obtain ⟨rest, hr, rfl⟩ := noting_eq_ok_iff.mp h
    rw [readLines_cons] at hr
    split at hr
    case h_1 => cases hr
    case h_2 item hi =>
      obtain ⟨later, hl, rfl⟩ := noting_eq_ok_iff.mp hr
      exact ⟨before, earlier, item, later, hb, hi, hl, rfl⟩

section

variable {before : Reader} {earlier later : List Notice}
  (hb : (before.read (k + ls.length) item).1.readLines (k + ls.length + 1) ms = .ok (last, later))
  (hn : earlier ++ ((before.read (k + ls.length) item).2.toList ++ later) = notices)
include hb hn

theorem noticesOf_above {n : Nat} (h : n < k + ls.length) :
    noticesOf n notices = noticesOf n earlier := by
  have own : noticesOf n (before.read (k + ls.length) item).2.toList = [] := by
    refine noticesOf_eq_nil fun notice hm => ?_
    have := line_of_read _ (Option.mem_toList.mp hm)
    omega
  rw [← hn, noticesOf_append, noticesOf_append, own, noticesOf_eq_nil_of_lt hb (by omega),
    List.append_nil, List.append_nil]

-- Of all notices those with the number of a line are what is said about it.
theorem noticesOf_line (ha : r.readLines k ls = .ok (before, earlier)) :
    noticesOf (k + ls.length) notices = (before.read (k + ls.length) item).2.toList := by
  rw [← hn, noticesOf_append, noticesOf_append, noticesOf_read,
    noticesOf_eq_nil_of_le ha (Nat.le_refl _), noticesOf_eq_nil_of_lt hb (Nat.lt_succ_self _),
    List.nil_append, List.append_nil]

end

end CaseFile
end RightLinear
