import Mathlib.Tactic.MkIffOfInductiveProp
import RightLinear.Proofs.CaseFile.Append
import RightLinear.Proofs.CaseFile.Rule
import RightLinear.Proofs.Text.Integer

namespace RightLinear

attribute [ext] Grammar

namespace CaseFile

variable {r r' r'' : Reader} {c : TestCase} {g g' : Grammar} {s : Section} {l o : String}
  {ls ms : List String} {raw text : List Char} {done : List TestCase} {opened : Option Section}
  {n : Nat}

def Section.header : Section → String
  | alphabet => "# Alphabet"
  | nonTerminals => "# Variables"
  | start => "# Start"
  | rules => "# Rules"
  | operation => "# Operation"

inductive StartLines : Option String → List String → Prop
  | symbol (q : String) : StartLines (some q) [Section.start.header, q]
  | header : StartLines none [Section.start.header]
  | absent : StartLines none []

-- A line takes any number of successive rules with one left side.
inductive RuleLines : List Production → List String → Prop
  | nil : RuleLines [] []
  | cons {left : String} {rights : List String} {rules : List Production} {ls : List String}
    (hn : rights ≠ []) (h : RuleLines rules ls) :
    RuleLines (rights.map (⟨left, ·⟩) ++ rules) (ruleText left rights :: ls)

inductive GrammarLines (g : Grammar) : List String → Prop
  | lines {start rules : List String} (hs : StartLines g.start start)
    (hr : RuleLines g.productions rules) :
    GrammarLines g ([g.name ++ ":", Section.alphabet.header, " ".intercalate g.terminals,
      Section.nonTerminals.header, " ".intercalate g.nonTerminals] ++ start ++
      [Section.rules.header] ++ rules ++ ["========"])

def operationLines : Option String → List String
  | none => []
  | some o => [Section.operation.header, o]

inductive CaseLines (c : TestCase) : List String → Prop
  | lines {blocks : List (List String)} (hg : List.Forall₂ GrammarLines c.grammars blocks) :
    CaseLines c ([toString c.id ++ ":"] ++ blocks.flatten ++ operationLines c.operation)

-- The lines of some test cases, one after another.
def Layout (cases : List TestCase) (ls : List String) : Prop :=
  ∃ blocks, List.Forall₂ CaseLines cases blocks ∧ blocks.flatten = ls

-- A text that is read as it is on a line of its own.
@[mk_iff]
structure Plain (s : String) : Prop where
  nonempty : s ≠ ""
  stripped : Text.trim s.toList = s.toList
  unbroken : ∀ c ∈ s.toList, Text.isBreak c = false
  no_hash  : s.toList.head? ≠ some '#'
  no_colon : s.toList.getLast? ≠ some ':'
  no_end   : s.toList ≠ grammarEndMark

@[mk_iff]
structure PlainSymbol (a : String) : Prop extends Plain a where
  not_blank : ∀ c ∈ a.toList, Text.isBlank c = false

@[mk_iff]
structure LeftSide (left : String) : Prop extends Side left where
  unbroken : ∀ c ∈ left.toList, Text.isBreak c = false
  no_hash  : left.toList.head? ≠ some '#'

-- The empty word is written in one way.
@[mk_iff]
structure RightSide (right : String) : Prop extends Side right where
  unbroken : ∀ c ∈ right.toList, Text.isBreak c = false
  no_bar   : '|' ∉ right.toList
  marked   : isEpsilonMark right = true → right = epsilon

@[mk_iff]
structure WritableGrammar (g : Grammar) : Prop where
  name_head      : g.name.toList.head? = some 'G'
  name_not_blank : ∀ c ∈ g.name.toList, Text.isBlank c = false
  terminals      : ∀ a ∈ g.terminals, PlainSymbol a
  nonTerminals   : ∀ q ∈ g.nonTerminals, PlainSymbol q
  nodup          : g.nonTerminals.Nodup
  start          : ∀ q ∈ g.start, Plain q
  left           : ∀ p ∈ g.productions, LeftSide p.left
  right          : ∀ p ∈ g.productions, RightSide p.right

@[mk_iff]
structure Writable (c : TestCase) : Prop where
  natural   : 0 ≤ c.id
  grammars  : ∀ g ∈ c.grammars, WritableGrammar g
  operation : ∀ o ∈ c.operation, Plain o

instance {s : String} : Decidable (Plain s) :=
  decidable_of_iff' _ (plain_iff s)

instance {a : String} : Decidable (PlainSymbol a) :=
  decidable_of_iff' _ (plainSymbol_iff a)

instance {left : String} : Decidable (LeftSide left) :=
  decidable_of_iff' _ (leftSide_iff left)

instance {right : String} : Decidable (RightSide right) :=
  decidable_of_iff' _ (rightSide_iff right)

instance {g : Grammar} : Decidable (WritableGrammar g) :=
  decidable_of_iff' _ (writableGrammar_iff g)

instance {c : TestCase} : Decidable (Writable c) :=
  decidable_of_iff' _ (writable_iff c)

-- Lines that stay as they are in a text, and are read from one state of the reader to another.
structure Reads (r : Reader) (ls : List String) (r' : Reader) : Prop where
  unbroken : ∀ l ∈ ls, ∀ c ∈ l.toList, Text.isBreak c = false
  reads    : ∀ n, r.readLines n (ls.map String.toList) = .ok (r', [])

namespace Reads

theorem nil : Reads r [] r :=
  ⟨nofun, fun _ => rfl⟩

theorem append (h : Reads r ls r') (h' : Reads r' ms r'') : Reads r (ls ++ ms) r'' where
  unbroken l hl := (List.mem_append.mp hl).elim (h.unbroken l) (h'.unbroken l)
  reads n := by
    rw [List.map_append, readLines_append, h.reads]
    exact noting_nil.trans (h'.reads _)

theorem line (item : Item) (hb : ∀ c ∈ l.toList, Text.isBreak c = false)
    (hi : Item.ofLine l.toList = .ok item) (hr : ∀ n, r.read n item = (r', none)) :
    Reads r [l] r' where
  unbroken := List.forall_mem_singleton.mpr hb
  reads n := by
    rw [List.map_singleton, readLines_cons, hi]
    simp only [hr]
    rfl

end Reads

theorem reads_section : Reads r [s.header] { r with opened := some s } :=
  .line (.sectionHeader (some s)) (by cases s <;> decide) (by cases s <;> decide +kernel)
    fun _ => rfl

theorem reads_grammarEnd : Reads ⟨done, some c, some g, some s⟩ ["========"]
    ⟨done, some { c with grammars := c.grammars ++ [g] }, none, none⟩ :=
  .line .grammarEnd (by decide) (by decide +kernel) fun _ => rfl

theorem beforeColon?_append : beforeColon? (raw ++ [':']) = some raw := by
  simp [beforeColon?]

theorem not_blank_header (h : ∀ c ∈ raw, Text.isBlank c = false) :
    ∀ c ∈ raw ++ [':'], Text.isBlank c = false := by
  intro c hc
  cases List.mem_append.mp hc
  case inl hc => exact h c hc
  case inr hc => exact List.mem_singleton.mp hc ▸ by decide

theorem not_break_header (h : ∀ c ∈ raw, Text.isBlank c = false) :
    ∀ c ∈ raw ++ [':'], Text.isBreak c = false :=
  fun c hc => Text.not_break_of_not_blank (not_blank_header h c hc)

theorem trim_header (h : ∀ c ∈ raw, Text.isBlank c = false) :
    Text.trim (raw ++ [':']) = raw ++ [':'] :=
  Text.trimmed_iff.mp (.of_not_blank (not_blank_header h))

theorem ofLine_number (hn : raw ≠ []) (hd : ∀ c ∈ raw, c.isDigit = true) :
    Item.ofLine (raw ++ [':']) = (Text.natural raw).map .caseHeader := by
  have ha : raw.all Text.isDecimal = true :=
    List.all_eq_true.mpr fun c hc => Text.isDecimal_of_isDigit (hd c hc)
  refine ofLine_caseHeader ?_
  rw [trim_header fun c hc => Text.not_blank_of_isDigit (hd c hc), caseDigits?, beforeColon?_append,
    Option.filter_some, ha]
  simp [hn]

theorem ofLine_name (hh : l.toList.head? = some 'G') (hb : ∀ c ∈ l.toList, Text.isBlank c = false) :
    Item.ofLine (l.toList ++ [':']) = .ok (.grammarHeader l) := by
  have hd : caseDigits? (l.toList ++ [':']) = none := by
    cases hl : l.toList
    case nil => rfl
    case cons c cs =>
      have hc : c = 'G' := by simpa [hl] using hh
      have hg : Text.isDecimal 'G' = false := by decide
      rw [caseDigits?, beforeColon?_append]
      simp [hc, hg]
  have hn : grammarName? (l.toList ++ [':']) = some l := by
    rw [grammarName?, beforeColon?_append]
    simpa [hh] using hb
  simp [Item.ofLine, trim_header hb, hd, hn]

-- A line is payload that has no hash in front and, if it ends with a colon, a space.
theorem ofLine_payload (ht : Text.trim raw = raw) (hn : raw ≠ [])
    (hc : raw.getLast? = some ':' → ' ' ∈ raw) (he : raw ≠ grammarEndMark)
    (hh : raw.head? ≠ some '#') : Item.ofLine raw = .ok (.payload raw) := by
  have hb : caseDigits? raw = none ∧ grammarName? raw = none := by
    by_cases hl : raw.getLast? = some ':'
    case neg => simp [caseDigits?, grammarName?, beforeColon?, hl]
    case pos =>
      have hs : ' ' ∈ raw.dropLast := by
        have hm := hc hl
        rw [← List.dropLast_append_getLast? ':' hl] at hm
        simpa using hm
      have hd : Text.isDecimal ' ' = false := by decide
      have hb : Text.isBlank ' ' = true := by decide
      simp only [caseDigits?, grammarName?, beforeColon?, hl, if_true, Option.bind_some,
        Option.filter_some]
      constructor
      case left  => simpa using fun _ => ⟨' ', hs, hd⟩
      case right => simpa using fun _ => ⟨' ', hs, hb⟩
  simp [Item.ofLine, ht, hn, hb, he, hh]

theorem Plain.ofLine (h : Plain l) : Item.ofLine l.toList = .ok (.payload l.toList) :=
  ofLine_payload h.stripped (by simpa using h.nonempty) (fun hc => absurd hc h.no_colon) h.no_end
    h.no_hash

theorem toList_join : (" ".intercalate ls).toList = [' '].intercalate (ls.map String.toList) := by
  rw [String.toList_intercalate]
  rfl

theorem join_ne_end (h : ∀ a ∈ ls, PlainSymbol a) :
    (" ".intercalate ls).toList ≠ grammarEndMark := by
  rw [toList_join]
  match ls, h with
  | [], _           => decide
  | [a], h          => simpa [List.intercalate_singleton] using (h a (.head _)).no_end
  | a :: b :: ls, _ =>
    intro he
    have hs : ' ' ∈ grammarEndMark := he ▸ by simp [List.intercalate_cons_cons]
    exact absurd hs (by decide)

theorem plain_join (h : ∀ a ∈ ls, PlainSymbol a) (hn : ls ≠ []) : Plain (" ".intercalate ls) := by
  have hm : ls.map String.toList ≠ [] := by simpa using hn
  have hne : ∀ l ∈ ls.map String.toList, l ≠ [] :=
    List.forall_mem_map.mpr fun a ha => by simpa using (h a ha).nonempty
  have ⟨first, hf, hhead⟩ := Text.exists_head?_intercalate (m := [' ']) hne hm
  have ⟨last, hl, hlast⟩ := Text.exists_getLast?_intercalate (m := [' ']) hne hm
  have ⟨a, ha, haf⟩ := List.mem_map.mp hf
  have ⟨b, hb, hbl⟩ := List.mem_map.mp hl
  rw [← haf, ← toList_join] at hhead
  rw [← hbl, ← toList_join] at hlast
  exact {
    nonempty := by
      intro he
      have hn : a.toList = [] := List.head?_eq_none_iff.mp (hhead.symm.trans (he ▸ rfl))
      exact hne _ hf (haf ▸ hn)
    stripped := by
      rw [toList_join]
      refine Text.trimmed_iff.mp (.intercalate (List.forall_mem_map.mpr fun a ha => ?_) hm)
      exact ⟨.of_not_blank (h a ha).not_blank, hne _ (List.mem_map_of_mem ha)⟩
    unbroken := by
      rw [toList_join]
      exact Text.forall_mem_intercalate (by decide)
        (List.forall_mem_map.mpr fun a ha => (h a ha).unbroken)
    no_hash  := hhead ▸ (h a ha).no_hash
    no_colon := hlast ▸ (h b hb).no_colon
    no_end   := join_ne_end h }

-- A rule, or several with one left side, has a space on either side of its arrow.
theorem ofLine_ruleText {left : String} {rights : List String} (hl : LeftSide left)
    (hr : ∀ q ∈ rights, RightSide q) (hn : rights ≠ []) :
    Item.ofLine (ruleText left rights).toList = .ok (.payload (ruleText left rights).toList) := by
  have hs : ' ' ∈ (ruleText left rights).toList := by simp [toList_ruleText]
  have hne : (ruleText left rights).toList ≠ [] := List.ne_nil_of_mem hs
  have hh : (ruleText left rights).toList.head? = left.toList.head? := by
    rw [toList_ruleText, List.append_assoc, List.head?_append_of_ne_nil _ hl.trimmed.right]
  refine ofLine_payload ?_ hne (fun _ => hs) ?_ (hh ▸ hl.no_hash)
  case refine_1 =>
    have hj : ∀ l ∈ rights.map String.toList, Text.Trimmed l ∧ l ≠ [] :=
      List.forall_mem_map.mpr fun q hq => (hr q hq).trimmed
    have hn : rights.map String.toList ≠ [] := by simpa using hn
    rw [toList_ruleText]
    exact Text.trimmed_iff.mp (hl.trimmed.left.append (.intercalate hj hn) hl.trimmed.right
      (Text.intercalate_ne_nil (fun l hl => (hj l hl).right) hn))
  case refine_2 =>
    intro he
    exact absurd (he ▸ hs) (by decide)

theorem not_break_ruleText {left : String} {rights : List String} (hl : LeftSide left)
    (hr : ∀ q ∈ rights, RightSide q) :
    ∀ c ∈ (ruleText left rights).toList, Text.isBreak c = false := by
  rw [toList_ruleText, List.append_assoc]
  refine List.forall_mem_append.mpr ⟨hl.unbroken, List.forall_mem_append.mpr ⟨by decide, ?_⟩⟩
  exact Text.forall_mem_intercalate (by decide)
    (List.forall_mem_map.mpr fun q hq => (hr q hq).unbroken)

theorem reads_blank : Reads r [""] r :=
  .line .blank (by simp) rfl fun _ => rfl

theorem reads_fill (hb : ∀ c ∈ l.toList, Text.isBreak c = false)
    (hi : Item.ofLine l.toList = .ok (.payload l.toList)) (hs : s ≠ .operation)
    (hf : Reader.fill g s l.toList = some g') :
    Reads ⟨done, some c, some g, some s⟩ [l] ⟨done, some c, some g', some s⟩ := by
  refine .line (.payload l.toList) hb hi fun n => ?_
  cases s
  case operation => contradiction
  all_goals simp [Reader.read, Reader.readPayload, hf]

-- Symbols with spaces between them are added one by one.
theorem reads_symbols {add : Grammar → String → Grammar} (hs : s ≠ .operation)
    (hf : ∀ text, Reader.fill g s text =
      some ((Text.words text).foldl (fun g w => add g (.ofList w)) g))
    (h : ∀ a ∈ ls, PlainSymbol a) :
    Reads ⟨done, some c, some g, some s⟩ [" ".intercalate ls]
      ⟨done, some c, some (ls.foldl add g), some s⟩ := by
  by_cases hn : ls = []
  case pos =>
    subst hn
    exact reads_blank
  case neg =>
    have hp := plain_join h hn
    have hw : Text.words (" ".intercalate ls).toList = ls.map String.toList := by
      rw [toList_join]
      refine Text.words_intercalate (List.forall_mem_map.mpr fun a ha => ?_)
      exact ⟨by simpa using (h a ha).nonempty, (h a ha).not_blank⟩
    refine reads_fill hp.unbroken hp.ofLine hs ?_
    rw [hf, hw, List.foldl_map]
    simp only [String.ofList_toList]

theorem reads_start {start : Option String} (h : StartLines start ls)
    (hp : ∀ q ∈ start, Plain q) (hg : g.start = none) :
    ∃ s', Reads ⟨done, some c, some g, some s⟩ ls
      ⟨done, some c, some { g with start := start }, some s'⟩ := by
  have hn : { g with start := none } = g := by rw [← hg]
  cases h
  case symbol q =>
    have hq := hp q rfl
    exact ⟨_, reads_section.append (reads_fill hq.unbroken hq.ofLine nofun (by
      rw [Reader.fill, String.ofList_toList]
      rfl))⟩
  case header =>
    rw [hn]
    exact ⟨_, reads_section⟩
  case absent =>
    rw [hn]
    exact ⟨_, .nil⟩

theorem addRule_eq {left : String} {rights : List String}
    (h : ∀ q ∈ rights, isEpsilonMark q = true → q = epsilon) :
    addRule g (left, rights) =
      { g with productions := g.productions ++ rights.map (⟨left, ·⟩) } := by
  simp only [addRule]
  induction rights generalizing g
  case nil => simp
  case cons q rights hi =>
    obtain ⟨hq, h⟩ := List.forall_mem_cons.mp h
    have he : (if isEpsilonMark q then epsilon else q) = q := by
      split
      case isTrue hm => exact (hq hm).symm
      case isFalse   => rfl
    rw [List.foldl_cons, hi h, Grammar.addProduction, he]
    simp

theorem reads_rules {rules : List Production} (h : RuleLines rules ls)
    (hl : ∀ p ∈ rules, LeftSide p.left) (hr : ∀ p ∈ rules, RightSide p.right) :
    Reads ⟨done, some c, some g, some .rules⟩ ls
      ⟨done, some c, some { g with productions := g.productions ++ rules }, some .rules⟩ := by
  induction h generalizing g
  case nil => simpa using .nil
  case cons left rights rules ls hn _ hi =>
    obtain ⟨hl, hls⟩ := List.forall_mem_append.mp hl
    obtain ⟨hr, hrs⟩ := List.forall_mem_append.mp hr
    have hr : ∀ q ∈ rights, RightSide q := fun q hq => hr ⟨left, q⟩ (List.mem_map_of_mem hq)
    have hl : LeftSide left := List.forall_mem_map.mp hl _ (List.head_mem hn)
    let filled : Grammar := { g with productions := g.productions ++ rights.map (⟨left, ·⟩) }
    have hf : Reader.fill g .rules (ruleText left rights).toList = some filled := by
      have hs : ∀ q ∈ rights, Side q ∧ '|' ∉ q.toList :=
        fun q hq => ⟨(hr q hq).toSide, (hr q hq).no_bar⟩
      rw [Reader.fill, rule?_ruleText hl.toSide hs hn, Option.map_some,
        addRule_eq fun q hq => (hr q hq).marked]
    have hread : Reads ⟨done, some c, some g, some .rules⟩ [ruleText left rights]
        ⟨done, some c, some filled, some .rules⟩ :=
      reads_fill (not_break_ruleText hl hr) (ofLine_ruleText hl hr hn) (by decide) hf
    rw [← List.append_assoc]
    exact hread.append (hi hls hrs)

-- What every step adds to a list, all of them together add in order.
theorem part_foldl_append {p : Grammar → List String} {f : Grammar → String → Grammar}
    (h : ∀ g, ∀ a ∈ ls, a ∉ p g → p (f g a) = p g ++ [a]) (hn : (p g ++ ls).Nodup) :
    p (ls.foldl f g) = p g ++ ls := by
  induction ls generalizing g
  case nil => simp
  case cons a ls hi =>
    have hf : a ∉ p g := fun hm => (List.nodup_append.mp hn).right.right a hm a (.head _) rfl
    have he : p (f g a) = p g ++ [a] := h g a (.head _) hf
    rw [List.foldl_cons, hi (fun g a ha => h g a (.tail _ ha)) (by simpa [he] using hn), he,
      List.append_assoc, List.singleton_append]

-- The symbols of a grammar, added to a new one with its name.
def symbolsOnly (g : Grammar) : Grammar :=
  g.nonTerminals.foldl .addNonTerminal (g.terminals.foldl .addTerminal { name := g.name })

theorem part_symbolsOnly {β : Type} {p : Grammar → β}
    (ht : ∀ g as hn hm,
      p { g with terminals := as, terminals_nodup := hn, terminals_unmarked := hm } = p g)
    (hn : ∀ g as, p { g with nonTerminals := as } = p g) :
    p (symbolsOnly g) = p { name := g.name } :=
  (part_foldl fun g _ => part_addNonTerminal (hn g)).trans
    (part_foldl fun g _ => part_addTerminal (ht g))

theorem terminals_symbolsOnly : (symbolsOnly g).terminals = g.terminals := by
  have ht : ∀ g', ∀ a ∈ g.terminals, a ∉ g'.terminals →
      (Grammar.addTerminal g' a).terminals = g'.terminals ++ [a] := by
    intro g' a ha hf
    rw [Grammar.addTerminal, dif_neg (by simp [g.terminals_unmarked a ha, hf])]
  refine (part_foldl fun g _ => part_addNonTerminal fun _ => rfl).trans ?_
  exact part_foldl_append ht g.terminals_nodup

theorem nonTerminals_symbolsOnly (hn : g.nonTerminals.Nodup) :
    (symbolsOnly g).nonTerminals = g.nonTerminals := by
  have hq : ∀ g', ∀ q ∈ g.nonTerminals, q ∉ g'.nonTerminals →
      (Grammar.addNonTerminal g' q).nonTerminals = g'.nonTerminals ++ [q] := by
    intro g' q _ hf
    rw [Grammar.addNonTerminal, if_neg hf]
  have ht : (g.terminals.foldl Grammar.addTerminal { name := g.name }).nonTerminals = [] :=
    part_foldl fun g _ => part_addTerminal fun _ _ _ => rfl
  rw [symbolsOnly, part_foldl_append hq (by simpa [ht] using hn), ht, List.nil_append]

theorem eq_symbolsOnly (hn : g.nonTerminals.Nodup) :
    { symbolsOnly g with
      start := g.start, productions := (symbolsOnly g).productions ++ g.productions } = g := by
  have hname : (symbolsOnly g).name = g.name := part_symbolsOnly (fun _ _ _ _ => rfl) fun _ _ => rfl
  have hprod : (symbolsOnly g).productions = [] :=
    part_symbolsOnly (fun _ _ _ _ => rfl) fun _ _ => rfl
  ext1
  case name         => exact hname
  case nonTerminals => exact nonTerminals_symbolsOnly hn
  case terminals    => exact terminals_symbolsOnly
  case start        => rfl
  case productions  => rw [hprod, List.nil_append]

theorem reads_name (hh : l.toList.head? = some 'G') (hb : ∀ c ∈ l.toList, Text.isBlank c = false) :
    Reads ⟨done, some c, none, opened⟩ [l ++ ":"] ⟨done, some c, some { name := l }, none⟩ := by
  have hl : (l ++ ":").toList = l.toList ++ [':'] := String.toList_append
  refine .line (.grammarHeader l) ?_ (hl ▸ ofLine_name hh hb) fun _ => ?_
  case refine_1 => exact hl ▸ not_break_header hb
  case refine_2 => simp [Reader.read, Reader.closeGrammar]

theorem reads_grammar (h : GrammarLines g ls) (hw : WritableGrammar g) :
    Reads ⟨done, some c, none, opened⟩ ls
      ⟨done, some { c with grammars := c.grammars ++ [g] }, none, none⟩ := by
  cases h
  case lines start rules hs hr =>
    let reading (g : Grammar) (s : Section) : Reader := ⟨done, some c, some g, some s⟩
    let started : Grammar := { symbolsOnly g with start := g.start }
    have hname : Reads ⟨done, some c, none, opened⟩ [g.name ++ ":"]
        ⟨done, some c, some { name := g.name }, none⟩ := reads_name hw.name_head hw.name_not_blank
    have hts : Reads ⟨done, some c, some { name := g.name }, none⟩
        [Section.alphabet.header, " ".intercalate g.terminals]
        (reading (g.terminals.foldl .addTerminal { name := g.name }) .alphabet) :=
      reads_section.append (reads_symbols nofun (fun _ => rfl) hw.terminals)
    have hns : Reads (reading (g.terminals.foldl .addTerminal { name := g.name }) .alphabet)
        [Section.nonTerminals.header, " ".intercalate g.nonTerminals]
        (reading (symbolsOnly g) .nonTerminals) :=
      reads_section.append (reads_symbols nofun (fun _ => rfl) hw.nonTerminals)
    have ⟨s, hs⟩ : ∃ s, Reads (reading (symbolsOnly g) .nonTerminals) start (reading started s) :=
      reads_start hs hw.start (part_symbolsOnly (fun _ _ _ _ => rfl) fun _ _ => rfl)
    have hsec : Reads (reading started s) [Section.rules.header] (reading started .rules) :=
      reads_section
    have hr : Reads (reading started .rules) rules (reading g .rules) := by
      have he : { started with productions := started.productions ++ g.productions } = g :=
        eq_symbolsOnly hw.nodup
      have hr : Reads (reading started .rules) rules
          (reading { started with productions := started.productions ++ g.productions } .rules) :=
        reads_rules hr hw.left hw.right
      rwa [he] at hr
    exact (((((hname.append hts).append hns).append hs).append hsec).append hr).append
      reads_grammarEnd

theorem reads_grammars {gs : List Grammar} {blocks : List (List String)}
    (h : List.Forall₂ GrammarLines gs blocks) (hw : ∀ g ∈ gs, WritableGrammar g) :
    Reads ⟨done, some c, none, none⟩ blocks.flatten
      ⟨done, some { c with grammars := c.grammars ++ gs }, none, none⟩ := by
  induction h generalizing c
  case nil => simpa using .nil
  case cons g ls gs blocks hg _ hi =>
    have ⟨hw, hws⟩ := List.forall_mem_cons.mp hw
    rw [List.append_cons]
    exact (reads_grammar hg hw).append (hi hws)

theorem reads_number (hn : (toString n).toList.length ≤ Text.digitLimit) :
    Reads r [toString n ++ ":"] ⟨r.closeCase.finished, some { id := n }, none, none⟩ := by
  have hl : (toString n ++ ":").toList = (toString n).toList ++ [':'] := String.toList_append
  have hd : ∀ c ∈ (toString n).toList, c.isDigit = true := fun _ => Text.isDigit_of_mem_toString
  have hne : (toString n).toList ≠ [] := Text.toList_toString ▸ Nat.toDigits_ne_nil
  refine .line (.caseHeader n) ?_ ?_ fun _ => rfl
  case refine_1 => exact hl ▸ not_break_header fun c hc => Text.not_blank_of_isDigit (hd c hc)
  case refine_2 => rw [hl, ofLine_number hne hd, Text.natural_toString, if_pos hn, Except.map]

theorem reads_operation {operation : Option String} (h : ∀ o ∈ operation, Plain o)
    (hc : c.operation = none) :
    ∃ opened, Reads ⟨done, some c, none, none⟩ (operationLines operation)
      ⟨done, some { c with operation := operation }, none, opened⟩ := by
  cases operation
  case none =>
    have he : { c with operation := none } = c := by rw [← hc]
    rw [he]
    exact ⟨_, .nil⟩
  case some o =>
    have ho := h o rfl
    have hl : Reads ⟨done, some c, none, some .operation⟩ [o]
        ⟨done, some { c with operation := some o }, none, some .operation⟩ :=
      .line (.payload o.toList) ho.unbroken ho.ofLine fun _ => by
        simp [Reader.read, Reader.readPayload, Reader.setOperation, hc]
    exact ⟨_, reads_section.append hl⟩

theorem reads_case (h : CaseLines c ls) (hw : Writable c)
    (hi : (toString c.id).toList.length ≤ Text.digitLimit) :
    ∃ opened, Reads r ls ⟨r.closeCase.finished, some c, none, opened⟩ := by
  have ⟨n, hn⟩ := Int.eq_ofNat_of_zero_le hw.natural
  cases h
  case lines blocks hg =>
    have hnum : Reads r [toString c.id ++ ":"]
        ⟨r.closeCase.finished, some { id := c.id }, none, none⟩ := by
      rw [hn] at hi ⊢
      exact reads_number hi
    have hgs := @reads_grammars { id := c.id } r.closeCase.finished _ _ hg hw.grammars
    have ⟨opened, ho⟩ :=
      @reads_operation { c with operation := none } r.closeCase.finished _ hw.operation rfl
    exact ⟨opened, (hnum.append hgs).append ho⟩

theorem reads_layout {cases : List TestCase} {blocks : List (List String)}
    (h : List.Forall₂ CaseLines cases blocks) (hw : ∀ c ∈ cases, Writable c)
    (hi : ∀ c ∈ cases, (toString c.id).toList.length ≤ Text.digitLimit) :
    ∃ r', Reads r blocks.flatten r' ∧ r'.cases = r.cases ++ cases := by
  induction h generalizing r
  case nil => exact ⟨r, .nil, by simp⟩
  case cons c ls cases blocks hc _ ih =>
    have ⟨hw, hws⟩ := List.forall_mem_cons.mp hw
    have ⟨hi, his⟩ := List.forall_mem_cons.mp hi
    have ⟨opened, hr⟩ := @reads_case r _ _ hc hw hi
    have ⟨r', hr', he⟩ := @ih ⟨r.closeCase.finished, some c, none, opened⟩ hws his
    refine ⟨r', hr.append hr', ?_⟩
    rw [he]
    simp [Reader.cases, Reader.closeCase, Reader.closeGrammar]

-- What is written part by part, each on a line of its own, is read without a notice, and what is
-- read is what was written.
theorem read_layout {cases : List TestCase} (h : Layout cases ls) (hw : ∀ c ∈ cases, Writable c)
    (hi : ∀ c ∈ cases, (toString c.id).toList.length ≤ Text.digitLimit)
    (ht : text = Text.ended '\n' (ls.map String.toList) ∨
      text ++ ['\n'] = Text.ended '\n' (ls.map String.toList)) :
    read text = .ok ⟨cases, []⟩ := by
  have ⟨blocks, hb, he⟩ := h
  have ⟨r, hr, hc⟩ := @reads_layout {} _ _ hb hw hi
  rw [he] at hr
  have hread : read (Text.ended '\n' (ls.map String.toList)) = .ok ⟨cases, []⟩ := by
    rw [read, Text.lines_ended (List.forall_mem_map.mpr hr.unbroken), hr.reads]
    exact congrArg (fun cases => Except.ok (Reading.mk cases [])) hc
  cases ht
  case inl ht => rw [ht, hread]
  case inr ht => rw [← read_append_newline, ht, hread]

-- Two rules on one line, symbols that look like headers and marks, and a test case with a number
-- only, on a line that is not ended.
def writtenCases : List TestCase :=
  [{ id := 7
     operation := some "Union: 1"
     grammars := [
      { name := "G"
        nonTerminals := ["S", "1"]
        terminals := ["->", "=", "a"]
        start := some "S"
        productions := [⟨"S", "a1"⟩, ⟨"S", "ε"⟩, ⟨"1", "a:"⟩, ⟨"S", "a"⟩]
        terminals_unmarked := by decide +kernel },
      { name := "G:" }] },
    { id := 7 }]

def writtenLines : List String :=
  ["7:", "G:", "# Alphabet", "-> = a", "# Variables", "S 1", "# Start", "S", "# Rules",
    "S -> a1 | ε", "1 -> a:", "S -> a", "========", "G::", "# Alphabet", "", "# Variables", "",
    "# Rules", "========", "# Operation", "Union: 1", "7:"]

theorem read_layout_mixed : Layout writtenCases writtenLines ∧
    (∀ c ∈ writtenCases, Writable c) ∧
    (∀ c ∈ writtenCases, (toString c.id).toList.length ≤ Text.digitLimit) ∧
    read ("\n".intercalate writtenLines).toList = .ok ⟨writtenCases, []⟩ := by
  have hl : Layout writtenCases writtenLines := by
    have hr : RuleLines [⟨"S", "a1"⟩, ⟨"S", "ε"⟩, ⟨"1", "a:"⟩, ⟨"S", "a"⟩]
        ["S -> a1 | ε", "1 -> a:", "S -> a"] :=
      @RuleLines.cons "S" ["a1", "ε"] _ _ nofun
        (@RuleLines.cons "1" ["a:"] _ _ nofun (@RuleLines.cons "S" ["a"] _ _ nofun .nil))
    exact ⟨_, .cons (.lines (.cons (.lines (.symbol "S") hr) (.cons (.lines .absent .nil) .nil)))
      (.cons (.lines .nil) .nil), by decide +kernel⟩
  have hw : ∀ c ∈ writtenCases, Writable c := by decide +kernel
  have hi : ∀ c ∈ writtenCases, (toString c.id).toList.length ≤ Text.digitLimit := by
    decide +kernel
  refine ⟨hl, hw, hi, read_layout hl hw hi (.inr ?_)⟩
  rw [String.toList_intercalate]
  decide +kernel

-- The least number that has too many digits.
def longCase : TestCase :=
  { id := Nat.pow 10 Text.digitLimit }

def longLine : String :=
  toString (Nat.pow 10 Text.digitLimit) ++ ":"

theorem not_read_layout_long : Layout [longCase] [longLine] ∧ Writable longCase ∧
    read (longLine.toList ++ ['\n']) = .error ⟨[], ⟨4301⟩⟩ := by
  have hd : ∀ c ∈ (toString (Nat.pow 10 Text.digitLimit)).toList, c.isDigit = true :=
    fun _ => Text.isDigit_of_mem_toString
  have hl : longLine.toList = (toString (Nat.pow 10 Text.digitLimit)).toList ++ [':'] :=
    String.toList_append
  have hcount : (toString (Nat.pow 10 Text.digitLimit)).toList.length = 4301 :=
    Text.length_toString_pow (by decide)
  have hi : Item.ofLine longLine.toList = .error ⟨4301⟩ := by
    rw [hl, ofLine_number (List.ne_nil_of_length_eq_add_one hcount) hd, Text.natural_toString,
      hcount, if_neg (show ¬4301 ≤ Text.digitLimit by decide)]
    rfl
  have hb : ∀ c ∈ longLine.toList, Text.isBreak c = false :=
    hl ▸ not_break_header fun c hc => Text.not_blank_of_isDigit (hd c hc)
  refine ⟨⟨_, .cons (.lines .nil) .nil, rfl⟩, ⟨Int.natCast_nonneg _, nofun, nofun⟩, ?_⟩
  rw [read, Text.lines_line hb, readLines_cons, hi]

end CaseFile
end RightLinear
