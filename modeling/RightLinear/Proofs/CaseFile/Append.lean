import RightLinear.Proofs.CaseFile.Reader
import RightLinear.Proofs.Text.Lines

namespace RightLinear.CaseFile

variable {r : Reader} {item : Item} {notice : Notice} {k n : Nat} {l text a b : List Char}
  {ls ms : List (List Char)} {earlier later : List Notice} {done : List TestCase}

-- What was noticed earlier comes first.
def noting {α : Type} (earlier : List Notice) :
    Except Refusal (α × List Notice) → Except Refusal (α × List Notice)
  | .error e => .error { e with notices := earlier ++ e.notices }
  | .ok (a, later) => .ok (a, earlier ++ later)

theorem noting_nil {α : Type} {x : Except Refusal (α × List Notice)} : noting [] x = x := by
  cases x <;> rfl

theorem noting_noting {α : Type} {x : Except Refusal (α × List Notice)} :
    noting earlier (noting later x) = noting (earlier ++ later) x := by
  cases x <;> simp [noting]

theorem noting_eq_ok_iff {α : Type} {x : Except Refusal (α × List Notice)} {a : α}
    {notices : List Notice} : noting earlier x = .ok (a, notices) ↔
      ∃ later, x = .ok (a, later) ∧ earlier ++ later = notices := by
  cases x
  case error => simp [noting]
  case ok    => simp [noting, Prod.ext_iff, eq_comm]

theorem readLines_cons : r.readLines n (l :: ls) =
    match Item.ofLine l with
    | .error cause => .error ⟨[], cause⟩
    | .ok item => noting (r.read n item).2.toList ((r.read n item).1.readLines (n + 1) ls) := by
  rw [Reader.readLines]
  cases Item.ofLine l
  case error   => rfl
  case ok item =>
    simp only
    cases (r.read n item).1.readLines (n + 1) ls <;> rfl

theorem readLines_append : r.readLines n (ls ++ ms) =
    match r.readLines n ls with
    | .error e => .error e
    | .ok (r', notices) => noting notices (r'.readLines (n + ls.length) ms) := by
  induction ls generalizing r n
  case nil => exact noting_nil.symm
  case cons l ls hi =>
    rw [List.cons_append, readLines_cons, readLines_cons]
    cases Item.ofLine l
    case error   => rfl
    case ok item =>
      simp only
      rw [hi, List.length_cons, Nat.add_comm ls.length, ← Nat.add_assoc]
      cases (r.read n item).1.readLines (n + 1) ls
      case error => rfl
      case ok    => exact noting_noting

theorem ofLine_blank (h : Text.trim l = []) : Item.ofLine l = .ok .blank := by
  rw [Item.ofLine, h]
  rfl

theorem readLines_blank (h : Text.trim l = []) :
    r.readLines n (l :: ls) = r.readLines (n + 1) ls := by
  rw [readLines_cons, ofLine_blank h]
  exact noting_nil

-- An end of the last line, or an empty line in its place, says nothing.
theorem readLines_append_newline : r.readLines n (Text.lines (a ++ ['\n'])) =
    r.readLines n (Text.lines a) := by
  cases @Text.lines_append_singleton_newline a
  case inl h => rw [h]
  case inr h =>
    rw [h, readLines_append]
    cases r.readLines n (Text.lines a)
    case error => rfl
    case ok    =>
      simp only [readLines_blank (show Text.trim [] = [] from rfl)]
      simp [noting, Reader.readLines]

theorem read_append_newline : read (a ++ ['\n']) = read a := by
  rw [read, read, readLines_append_newline]

-- The notice of the same line, with more lines before it.
def Notice.shift (k : Nat) : Notice → Notice
  | grammarOutside n name => grammarOutside (n + k) name
  | operationOutside n => operationOutside (n + k)
  | unexpected n text => unexpected (n + k) text
  | invalidRule n text => invalidRule (n + k) text

namespace Reader

-- The reader, with other test cases finished before its own.
def atop (done : List TestCase) (r : Reader) : Reader :=
  { r with finished := r.finished ++ done }

theorem closeCase_atop : (r.atop done).closeCase = r.closeCase.atop done := by
  simp [closeCase, closeGrammar, atop]

theorem cases_atop : (r.atop done).cases = done.reverse ++ r.cases := by
  rw [cases, closeCase_atop, cases]
  exact List.reverse_append

theorem readPayload_atop : (r.atop done).readPayload (n + k) text =
    ((r.readPayload n text).1.atop done, (r.readPayload n text).2.map (.shift k)) := by
  have ⟨_, current, grammar, opened⟩ := r
  simp only [readPayload, atop]
  split
  case h_1 => rfl
  case h_2 => rfl
  case h_3 => split <;> rfl
  case h_4 => split <;> rfl
  case h_5 => rfl

theorem read_atop : (r.atop done).read (n + k) item =
    ((r.read n item).1.atop done, (r.read n item).2.map (.shift k)) := by
  cases item
  case payload       => exact readPayload_atop
  case caseHeader id =>
    rw [read, closeCase_atop]
    rfl
  case grammarHeader =>
    have ⟨_, current, _, _⟩ := r
    cases current <;> rfl
  all_goals rfl

end Reader

-- What is read, further down and with other test cases finished before.
def below (k : Nat) (done : List TestCase) :
    Except Refusal (Reader × List Notice) → Except Refusal (Reader × List Notice)
  | .error e => .error { e with notices := e.notices.map (.shift k) }
  | .ok (r, notices) => .ok (r.atop done, notices.map (.shift k))

theorem below_noting {x : Except Refusal (Reader × List Notice)} :
    below k done (noting earlier x) = noting (earlier.map (.shift k)) (below k done x) := by
  cases x <;> simp [below, noting]

theorem readLines_atop : (r.atop done).readLines (n + k) ls = below k done (r.readLines n ls) := by
  induction ls generalizing r n
  case nil => rfl
  case cons l ls hi =>
    rw [readLines_cons, readLines_cons]
    cases Item.ofLine l
    case error   => rfl
    case ok item =>
      simp only [Reader.read_atop]
      rw [Nat.add_right_comm, hi, below_noting, Option.toList_map]

-- The first line that is not blank is a case header.
inductive OpensCase : List (List Char) → Prop
  | header {l : List Char} {ls : List (List Char)} (h : (caseDigits? (Text.trim l)).isSome = true) :
    OpensCase (l :: ls)
  | blank {l : List Char} {ls : List (List Char)} (h : Text.trim l = []) (hs : OpensCase ls) :
    OpensCase (l :: ls)

theorem ofLine_caseHeader {digits : List Char} (h : caseDigits? (Text.trim l) = some digits) :
    Item.ofLine l = (Text.natural digits).map .caseHeader := by
  have hl : (Text.trim l).isEmpty = false := by
    cases ht : Text.trim l
    case nil  => simp [ht, caseDigits?, beforeColon?] at h
    case cons => rfl
  simp [Item.ofLine, hl, h]

-- Whatever is open, a case header closes it.
theorem read_caseHeader {id : Nat} : r.read (n + k) (.caseHeader id) =
    ((({} : Reader).read n (.caseHeader id)).1.atop r.closeCase.finished, none) :=
  rfl

-- A case header closes whatever is open, so from one on a text is read as it is read alone, below
-- the test cases from before and with its lines counted on.
theorem readLines_of_opensCase (h : OpensCase ls) :
    r.readLines (n + k) ls = below k r.closeCase.finished (({} : Reader).readLines n ls) := by
  induction h generalizing n
  case blank h _ hi =>
    rw [readLines_blank h, readLines_blank h, Nat.add_right_comm]
    exact hi
  case header h =>
    have ⟨digits, hd⟩ := Option.isSome_iff_exists.mp h
    rw [readLines_cons, readLines_cons, ofLine_caseHeader hd]
    cases Text.natural digits
    case error => rfl
    case ok id =>
      simp only [Except.map, read_caseHeader]
      rw [Nat.add_right_comm, readLines_atop, below_noting]
      rfl

theorem read_append (hb : OpensCase (Text.lines b)) : read (a ++ '\n' :: b) =
    match read a, read b with
    | .error e, _ => .error e
    | .ok ra, .error e =>
      .error { e with
        notices := ra.notices ++ e.notices.map (.shift (Text.lines (a ++ ['\n'])).length) }
    | .ok ra, .ok rb =>
      .ok ⟨ra.cases ++ rb.cases,
        ra.notices ++ rb.notices.map (.shift (Text.lines (a ++ ['\n'])).length)⟩ := by
  rw [← @read_append_newline a]
  simp only [read]
  rw [Text.lines_append_newline, readLines_append]
  cases ({} : Reader).readLines 1 (Text.lines (a ++ ['\n']))
  case error => rfl
  case ok ra =>
    simp only [readLines_of_opensCase hb]
    cases ({} : Reader).readLines 1 (Text.lines b)
    case error => rfl
    case ok rb =>
      simp only [below, noting, Reader.cases_atop]
      rfl

-- A grammar that is still open, with a rule that is none before a carriage return; and a test case
-- after an empty line.
def openText : List Char :=
  "stray\n1:\nG1:\n# rules\nS -> a\nnone\r".toList

def nextText : List Char :=
  "\n 2:\nunion\nextra".toList

theorem read_append_open : OpensCase (Text.lines nextText) ∧
    read (openText ++ '\n' :: nextText) =
      .ok ⟨[{ id := 1, grammars := [{ name := "G1", productions := [⟨"S", "a"⟩] }] },
          { id := 2, operation := some "union" }],
        [.unexpected 1 "stray", .invalidRule 6 "none", .unexpected 10 "extra"]⟩ := by
  have hl : Text.lines nextText = [[], " 2:".toList, "union".toList, "extra".toList] := by decide
  have hb : OpensCase (Text.lines nextText) := hl ▸ .blank rfl (.header (by decide))
  refine ⟨hb, ?_⟩
  rw [read_append hb]
  decide +kernel

end RightLinear.CaseFile
