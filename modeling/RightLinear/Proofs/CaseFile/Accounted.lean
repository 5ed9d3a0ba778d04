import RightLinear.Proofs.CaseFile.Growth
import RightLinear.Proofs.Text.Integer

namespace RightLinear.CaseFile

variable {r last : Reader} {g g' : Grammar} {item : Item} {l text : List Char}
  {above below : List (List Char)} {notice : Notice}
  {notices earlier : List Notice} {e : Refusal} {k : Nat}

-- A line without the blanks around it that is neither blank nor a header, the end of a grammar or a
-- line with a hash.
structure Payload (text : List Char) : Prop where
  not_blank   : text ≠ []
  not_case    : caseDigits? text = none
  not_grammar : grammarName? text = none
  not_end     : text ≠ grammarEndMark
  not_hash    : text.head? ≠ some '#'

instance : Decidable (Payload text) :=
  decidable_of_iff (text ≠ [] ∧ caseDigits? text = none ∧ grammarName? text = none ∧
    text ≠ grammarEndMark ∧ text.head? ≠ some '#')
    ⟨fun ⟨hb, hc, hg, he, hh⟩ => ⟨hb, hc, hg, he, hh⟩,
      fun ⟨hb, hc, hg, he, hh⟩ => ⟨hb, hc, hg, he, hh⟩⟩

theorem ofLine_of_payload (h : Payload (Text.trim l)) :
    Item.ofLine l = .ok (.payload (Text.trim l)) := by
  simp [Item.ofLine, h.not_blank, h.not_case, h.not_grammar, h.not_end, h.not_hash]

-- How the text of a record begins that carries the number of a line.
def numbering (k : Nat) : String :=
  "Line " ++ toString k ++ ": "

theorem numbering_append {s t : String} (h : ": " ++ t = s) :
    "Line " ++ toString k ++ s = numbering k ++ t := by
  rw [← h, numbering, String.append_assoc, String.append_assoc, String.append_assoc]

theorem numbering_append_append {s t text rest : String} (h : ": " ++ t = s) :
    "Line " ++ toString k ++ s ++ text ++ rest = numbering k ++ (t ++ text ++ rest) := by
  rw [numbering_append h, String.append_assoc, String.append_assoc, String.append_assoc]

theorem exists_message_eq (notice : Notice) :
    ∃ rest, notice.message = numbering notice.line ++ rest := by
  cases notice
  case grammarOutside =>
    exact ⟨_, numbering_append_append (t := "grammar ") (by decide +kernel)⟩
  case operationOutside =>
    exact ⟨"operation outside a test case, skipped", numbering_append (by decide +kernel)⟩
  case unexpected =>
    exact ⟨_, numbering_append_append (t := "unexpected line '") (by decide +kernel)⟩
  case invalidRule =>
    exact ⟨_, numbering_append_append (t := "invalid rule '") (by decide +kernel)⟩

-- The colon ends the number, so no text carries two.
theorem numbering_prefix_iff :
    (numbering k).toList <+: notice.message.toList ↔ notice.line = k := by
  have ⟨rest, hm⟩ := exists_message_eq notice
  rw [hm, String.toList_append]
  constructor
  case mpr => exact fun h => h ▸ List.prefix_append ..
  case mp  =>
    rintro ⟨tail, h⟩
    simp only [numbering, String.toList_append, List.append_assoc,
      List.append_cancel_left_eq] at h
    have colon {cs : List Char} : (": ".toList ++ cs).takeWhile Char.isDigit = [] := rfl
    have same := congrArg (List.takeWhile Char.isDigit) h
    rw [List.takeWhile_append_of_pos fun _ => Text.isDigit_of_mem_toString,
      List.takeWhile_append_of_pos fun _ => Text.isDigit_of_mem_toString, colon, colon,
      List.append_nil, List.append_nil, String.toList_inj] at same
    exact (toString_nat_injective same).symm

-- The records that carry the number of a line.
def recordsOf (k : Nat) (notices : List Notice) : List Log.Record :=
  (notices.map (·.record)).filter fun record => (numbering k).toList <+: record.message.toList

theorem recordsOf_eq : recordsOf k notices = (noticesOf k notices).map (·.record) := by
  rw [recordsOf, noticesOf, List.filter_map]
  congr 1
  exact List.filter_congr fun notice _ => decide_eq_decide.mpr numbering_prefix_iff

-- What does not close an open grammar.
def Item.Inside : Item → Prop
  | .caseHeader _ | .grammarHeader _ | .grammarEnd => False
  | .blank | .sectionHeader _ | .payload _ => True

-- The lines end inside a grammar whose header was noticed, once, to be outside a test case.
inductive Stray (notices : List Notice) (g : Grammar) : List (List Char) → Prop
  | opened {above within : List (List Char)} {header : List Char} {name : String}
    (hh : Item.ofLine header = .ok (.grammarHeader name))
    (hw : ∀ l ∈ within, ∃ item, Item.ofLine l = .ok item ∧ item.Inside)
    (hn : recordsOf (1 + above.length) notices =
      [(Notice.grammarOutside (1 + above.length) name).record])
    (hg : Grows { name } g) : Stray notices g (above ++ header :: within)

namespace Stray

theorem grows (h : Stray notices g above) (hg : Grows g g') : Stray notices g' above := by
  cases h
  case opened hh hw hn hg' => exact .opened hh hw hn (hg'.trans hg)

-- Notices of later lines do not matter.
theorem notices_of (h : Stray earlier g above)
    (hn : ∀ n < 1 + above.length, noticesOf n notices = noticesOf n earlier) :
    Stray notices g above := by
  cases h
  case opened hh hw he hg =>
    refine .opened hh hw ?_ hg
    rwa [recordsOf_eq, hn _ (by simp), ← recordsOf_eq]

theorem concat (h : Stray notices g above) (hi : Item.ofLine l = .ok item) (hin : item.Inside) :
    Stray notices g (above ++ [l]) := by
  cases h
  case opened hh hw hn hg =>
    rw [List.append_assoc, List.cons_append]
    refine .opened hh (fun m hm => ?_) hn hg
    rcases List.mem_append.mp hm with hm | hm
    · exact hw m hm
    · exact List.mem_singleton.mp hm ▸ ⟨item, hi, hin⟩

end Stray

-- Without an open test case, an open grammar was opened outside one. The induction is on the lines,
-- from the last one up: either that one is the header, or the grammar was open before it.
theorem stray_of_readLines (h : ({} : Reader).readLines 1 above = .ok (r, notices))
    (hc : r.current = none) (hg : r.grammar = some g) : Stray notices g above := by
  induction above using List.reverseRecOn generalizing r g notices
  case nil =>
    cases h
    cases hg
  case append_singleton above l hi =>
    have ⟨before, earlier, item, later, ha, hl, hb, hn⟩ := exists_of_readLines h
    have still {g₀ : Grammar} (hc₀ : before.current = none) (hg₀ : before.grammar = some g₀)
        (hin : item.Inside) : Stray notices g₀ (above ++ [l]) :=
      (hi ha hc₀ hg₀).notices_of (fun n hlt => noticesOf_above hb hn hlt) |>.concat hl hin
    have own := noticesOf_line hb hn ha
    cases hb
    cases item
    case blank             => exact still hc hg trivial
    case sectionHeader     => exact still hc hg trivial
    case caseHeader        => cases hc
    case grammarEnd        => cases hg
    case grammarHeader name =>
      have hc₀ : before.current = none := Option.map_eq_none_iff.mp hc
      cases hg
      refine .opened hl nofun ?_ .refl
      rw [recordsOf_eq, own]
      simp [Reader.read, hc₀]
    case payload text      =>
      have handled : Handled before (1 + above.length) text (before.read _ (.payload text)) :=
        handled_readPayload
      generalize before.read _ (.payload text) = step at handled hc hg
      cases handled
      case operation             => cases hc
      case repeated              => exact still hc hg trivial
      case skipped               => exact still hc hg trivial
      case filled g₀ _ s hg₀ _ _ hf =>
        cases hg
        exact (still hc hg₀ trivial).grows <| .single ⟨s, text, hf⟩

-- What becomes of a payload line, given the reader before it, the lines above it, and the test cases
-- and the notices in the end. The open test case comes after the finished ones, and the open grammar
-- after the grammars of its test case; both stay in these places. Notices count lines from one.
inductive Fate (r : Reader) (above : List (List Char)) (text : List Char) (cases : List TestCase)
    (notices : List Notice) : Prop
  | operation {c c' : TestCase} (hc : r.current = some c) (ho : c.operation = none)
    (hc' : cases[r.finished.length]? = some c') (hi : c'.id = c.id)
    (ho' : c'.operation = some (.ofList text)) (hq : recordsOf (1 + above.length) notices = [])
  | filled {c c' : TestCase} {g g₁ g' : Grammar} {s : Section} (hc : r.current = some c)
    (hg : r.grammar = some g) (hs : r.opened = some s) (hn : s ≠ .operation)
    (hf : Reader.fill g s text = some g₁) (hc' : cases[r.finished.length]? = some c')
    (hi : c'.id = c.id) (hg' : c'.grammars[c.grammars.length]? = some g') (hl : Grows g₁ g')
    (hq : recordsOf (1 + above.length) notices = [])
  | stray {g g₁ : Grammar} {s : Section} (hc : r.current = none) (hg : r.grammar = some g)
    (hs : r.opened = some s) (hn : s ≠ .operation) (hf : Reader.fill g s text = some g₁)
    (ho : Stray notices g above) (hq : recordsOf (1 + above.length) notices = [])
  | skipped {notice : Notice} (hs : Skips (1 + above.length) text notice)
    (hr : recordsOf (1 + above.length) notices = [notice.record])

-- A payload line below others, with the test cases and the notices in the end.
def Accounted (above : List (List Char)) (text : List Char) (cases : List TestCase)
    (notices : List Notice) : Prop :=
  ∃ r earlier, ({} : Reader).readLines 1 above = .ok (r, earlier) ∧
    (r.Repeats ∨ Fate r above text cases notices)

theorem accounted_of_readLines
    (h : ({} : Reader).readLines 1 (above ++ l :: below) = .ok (last, notices))
    (hp : Payload (Text.trim l)) : Accounted above (Text.trim l) last.cases notices := by
  have ⟨r, earlier, item, later, ha, hl, hb, hn⟩ := exists_of_readLines h
  cases hl.symm.trans (ofLine_of_payload hp)
  have outside {g : Grammar} (hc : r.current = none) (hg : r.grammar = some g) :
      Stray notices g above :=
    (stray_of_readLines ha hc hg).notices_of fun n hlt => noticesOf_above hb hn hlt
  have own := noticesOf_line hb hn ha
  have kept := extendedBy_readLines hb
  have handled : Handled r (1 + above.length) (Text.trim l) (r.read _ (.payload (Text.trim l))) :=
    handled_readPayload
  refine ⟨r, earlier, ha, ?_⟩
  have records := recordsOf_eq.trans (congrArg (List.map (·.record)) own)
  generalize r.read _ (.payload (Text.trim l)) = step at handled records kept
  cases handled
  case repeated hr => exact .inl hr
  case skipped hs  => exact .inr <| .skipped hs records
  case operation c hc ho =>
    obtain ⟨c', hc', grown⟩ := kept _ _ (Reader.getElem?_cases.trans (Reader.openCase_of_some rfl))
    rw [Reader.setOperation, if_pos ho] at grown
    exact .inr <| .operation hc ho hc' grown.id (grown.operation _ rfl) records
  case filled g g₁ s hg hs hn hf =>
    cases hc : r.current
    case none   => exact .inr <| .stray hc hg hs hn hf (outside hc hg) records
    case some c =>
      obtain ⟨c', hc', grown⟩ := kept _ _ (Reader.getElem?_cases.trans (Reader.openCase_of_some hc))
      obtain ⟨g', hg', hl⟩ := grown.grammars c.grammars.length g₁ List.getElem?_concat_length
      exact .inr <| .filled hc hg hs hn hf hc' grown.id hg' hl records

-- Reading is refused for a case header whose number has too many digits, and for nothing else.
theorem exists_of_readLines_eq_error (h : r.readLines k above = .error e) :
    ∃ readable header rest last, above = readable ++ header :: rest ∧
      r.readLines k readable = .ok (last, e.notices) ∧ Item.ofLine header = .error e.cause := by
  induction above generalizing r k e
  case nil => cases h
  case cons l above hi =>
    rw [readLines_cons] at h
    split at h
    case h_1 hl =>
      cases h
      exact ⟨[], l, above, r, rfl, rfl, hl⟩
    case h_2 item hl =>
      cases hr : (r.read k item).1.readLines (k + 1) above
      case ok    => cases hr ▸ h
      case error =>
        cases hr ▸ h
        have ⟨readable, header, rest, last, he, ha, hh⟩ := hi hr
        refine ⟨l :: readable, header, rest, last, congrArg _ he, ?_, hh⟩
        rw [readLines_cons, hl]
        simp only [ha, noting]

-- If the reading is refused, the test cases so far are lost, but not the notices so far.
theorem payload_accounted (hl : Text.lines text = above ++ l :: below) (hp : Payload (Text.trim l)) :
    match read text with
    | .ok reading => Accounted above (Text.trim l) reading.cases reading.notices
    | .error e => ∃ readable header rest last, Text.lines text = readable ++ header :: rest ∧
        ({} : Reader).readLines 1 readable = .ok (last, e.notices) ∧
        Item.ofLine header = .error e.cause ∧
        (above.length < readable.length →
          Accounted above (Text.trim l) last.cases e.notices) := by
  cases h : ({} : Reader).readLines 1 (Text.lines text)
  case ok result =>
    rw [read, h]
    exact accounted_of_readLines (hl ▸ h) hp
  case error e =>
    rw [read, h]
    obtain ⟨readable, header, rest, last, he, hr, hh⟩ := exists_of_readLines_eq_error h
    refine ⟨readable, header, rest, last, he, hr, hh, fun hlt => ?_⟩
    obtain ⟨between, rfl⟩ : above ++ [l] <+: readable :=
      List.prefix_of_prefix_length_le ⟨below, by simp [hl]⟩ ⟨header :: rest, he.symm⟩
        (by simpa [Nat.succ_le_iff] using hlt)
    rw [List.append_assoc] at hr
    exact accounted_of_readLines hr hp

-- A grammar outside a test case, and one inside with a rule that is none.
def twoGrammars : List Char :=
  "G0:\n# Alphabet\na\n1:\nG1:\n# Rules\nS -> a\nnone\n========\nUnion".toList

def secondGrammar : TestCase where
  id := 1
  operation := some "Union"
  grammars := [{ name := "G1", productions := [⟨"S", "a"⟩] }]

theorem payload_accounted_twoGrammars : Text.lines twoGrammars =
      (Text.lines twoGrammars).take 6 ++ "S -> a".toList :: (Text.lines twoGrammars).drop 7 ∧
    Payload "S -> a".toList ∧
    read twoGrammars = .ok ⟨[secondGrammar], [.grammarOutside 1 "G0", .invalidRule 8 "none"]⟩ ∧
    Accounted ((Text.lines twoGrammars).take 6) "S -> a".toList [secondGrammar]
      [.grammarOutside 1 "G0", .invalidRule 8 "none"] := by
  have hl : Text.lines twoGrammars =
      (Text.lines twoGrammars).take 6 ++ "S -> a".toList :: (Text.lines twoGrammars).drop 7 := by
    decide +kernel
  have hp : Payload (Text.trim "S -> a".toList) := by decide +kernel
  have hr : read twoGrammars =
      .ok ⟨[secondGrammar], [.grammarOutside 1 "G0", .invalidRule 8 "none"]⟩ := by
    decide +kernel
  have accounted := payload_accounted hl hp
  rw [hr] at accounted
  exact ⟨hl, hp, hr, accounted⟩

-- Of a grammar outside a test case only the header has a record.
def onlyStray : List Char :=
  "G1:\n# Alphabet\na\n".toList

-- A second line in the section of the operation.
def twoOperations : List Char :=
  "1:\n# Operation\nUnion\nIntersection\n".toList

-- What would become of every payload line if each that is lost had a record of its own.
def KeptOrNoted (k : Nat) (text : List Char) (reading : Reading) : Prop :=
  (∃ c ∈ reading.cases, c.operation = some (.ofList text)) ∨
  (∃ c ∈ reading.cases, ∃ g ∈ c.grammars, ∃ s g₀ g₁,
    Reader.fill g₀ s text = some g₁ ∧ Grows g₁ g) ∨
  ∃ notice : Notice, recordsOf k reading.notices = [notice.record]

theorem not_keptOrNoted :
    (∃ reading, read onlyStray = .ok reading ∧
      Text.lines onlyStray = ["G1:".toList, "# Alphabet".toList, "a".toList] ∧
      Payload "a".toList ∧ ¬KeptOrNoted 3 "a".toList reading) ∧
    ∃ reading, read twoOperations = .ok reading ∧
      Text.lines twoOperations =
        ["1:".toList, "# Operation".toList, "Union".toList, "Intersection".toList] ∧
      Payload "Intersection".toList ∧ ¬KeptOrNoted 4 "Intersection".toList reading := by
  constructor
  case left =>
    have silent : recordsOf 3 [.grammarOutside 1 "G1"] = [] := by decide +kernel
    refine ⟨⟨[], [.grammarOutside 1 "G1"]⟩, by decide +kernel, by decide +kernel,
      by decide +kernel, ?_⟩
    rintro (⟨_, hc, _⟩ | ⟨_, hc, _⟩ | ⟨_, hn⟩)
    · cases hc
    · cases hc
    · cases silent.symm.trans hn
  case right =>
    refine ⟨⟨[{ id := 1, operation := some "Union" }], []⟩, by decide +kernel, by decide +kernel,
      by decide +kernel, ?_⟩
    rintro (⟨_, hc, ho⟩ | ⟨_, hc, _, hg, _⟩ | ⟨_, hn⟩)
    · cases List.mem_singleton.mp hc
      exact absurd ho (by decide +kernel)
    · cases List.mem_singleton.mp hc
      cases hg
    · cases hn

end RightLinear.CaseFile
