import RightLinear.Proofs.Terminal.Effect
import RightLinear.Terminal.Dialogue

namespace RightLinear.Terminal

variable {d e : Dialogue} {s t : Session} {c : Command} {entry : Entry} {text said name : String}
  {edit : DFA.Edit} {dfa : DFA String}

namespace Command

-- What a command may change when it is carried out.
def Touches (c : Command) (s t : Session) : Prop :=
  match c with
  | load _ => t.automata = s.automata
  | toNFA _ result | toDFA _ result | complete _ result | complement _ result
  | product _ _ _ result =>
    t.grammars = s.grammars ∧ t.cases = s.cases ∧
      t.automata.erase result = s.automata.erase result
  | trim name | rename name | renameWith name _ =>
    t.grammars = s.grammars ∧ t.cases = s.cases ∧ t.automata.erase name = s.automata.erase name ∧
      ∃ d e, s.automata.find? name = some (.dfa d) ∧ t.automata.find? name = some (.dfa e)
  | delete name =>
    t.grammars = s.grammars.erase name ∧ t.cases = s.cases ∧ t.automata = s.automata.erase name
  | clear => t = {}
  | _ => t = s

end Command

open Command Session

theorem touches_of_effect (he : Effect s c t said) : c.Touches s t := by
  cases he
  case loaded ha   => exact ha
  case deleted     => exact ⟨rfl, rfl, rfl⟩
  case cleared     => rfl
  case shown hc    => cases c <;> first | rfl | cases hc
  case made hc     => cases c <;> cases hc <;> exact ⟨rfl, rfl, Table.erase_insert⟩
  case changed name edit d e hd he hc =>
    have hf : (s.setAutomaton name (.dfa e)).automata.find? name = some (.dfa e) :=
      Table.find?_insert.trans (if_pos rfl)
    cases c <;> cases hc <;> exact ⟨rfl, rfl, Table.erase_insert, _, _, hd, hf⟩

namespace Dialogue

-- The dialogue after any entries. Others may change the files between two of them.
inductive Reached : Dialogue → Prop
  | start {renderer : Diagram.Renderer} {config : Log.Config} {output : Log.Output} :
    Reached { renderer, config, output }
  | turn {d e : Dialogue} {entry : Entry} {said : String} (hd : d.Reached)
    (h : d.turn entry = (some e, said)) : Reached e
  | meanwhile {d : Dialogue} {output : Log.Output} (hd : d.Reached) : Reached { d with output }

-- What is said of a line tells of a failure, in general or of one of the names on the line.
def Complains (text said : String) : Prop :=
  Complaint (lineWords text).tail
    ((lineWords text).head? = some "union" ∨ (lineWords text).head? = some "intersect") said

-- A line that is no command, or a command that is not carried out.
def Fails (d : Dialogue) (text : String) : Prop :=
  match Command.ofLine? text with
  | none => False
  | some (.error _) => True
  | some (.ok c) =>
    ∃ said, (d.session.perform d.output.files d.renderer c).reply = .refused said

-- What a line may change when it does not fail.
def Touches (text : String) (s t : Session) : Prop :=
  match Command.ofLine? text with
  | some (.ok c) => c.Touches s t
  | _ => t = s

theorem exists_ofWords {r : Except Misuse Command} (h : Command.ofLine? text = some r) :
    ∃ word args, lineWords text = word :: args ∧ ofWords word args = r := by
  rw [Command.ofLine?] at h
  rw [lineWords]
  split at h
  case h_1           => cases h
  case h_2 word args => exact ⟨_, _, by simp [*], Option.some.inj h⟩

theorem complains_of_refused (hl : Command.ofLine? text = some (.ok c))
    (h : Complaint c.operands (c.isProduct = true) said) : Complains text said := by
  have ⟨word, args, hw, hc⟩ := exists_ofWords hl
  rw [Complains, hw]
  refine h.mono (operands_subset_of_ofWords hc) fun hp => ?_
  simpa using (isProduct_iff_of_ofWords hc).mp hp

theorem eq_of_complains (hl : Command.ofLine? text = some (.ok c)) (hs : s.Sound)
    (he : Effect s c t said) (h : Complains text said) : t = s := by
  have ⟨word, args, hw, hc⟩ := exists_ofWords hl
  have hn := not_space_of_mem_lineWords hw
  rw [Complains, hw] at h
  refine he.eq_of_complaint hs (worded_of_ofWords hc hn) hn (operands_subset_of_ofWords hc) ?_
  have hp := isProduct_iff_of_ofWords hc
  exact h.mono (List.Subset.refl args) fun h => hp.mpr (by simpa using h)

theorem turn_command (hl : Command.ofLine? text = some (.ok c)) (hx : c ≠ .exit) :
    ∃ output, d.turn (.line text) =
      (some { d with
        session := (d.session.perform d.output.files d.renderer c).session, output },
        (d.session.perform d.output.files d.renderer c).reply.text) := by
  rw [turn.eq_def]
  simp only [hl]
  cases c
  case exit => exact absurd rfl hx
  all_goals exact ⟨_, rfl⟩

-- What a line can come to when the dialogue goes on after it.
inductive Outcome (d : Dialogue) (text : String) (e : Dialogue) (said : String) : Prop
  | ignored (hl : Command.ofLine? text = none) (he : e.session = d.session)
  | misused {misuse : Misuse} (hl : Command.ofLine? text = some (.error misuse))
    (hc : Complains text said) (he : e.session = d.session)
  | refused {c : Command} (hl : Command.ofLine? text = some (.ok c)) (hc : Complains text said)
    (he : e.session = d.session)
  | done {c : Command} (hl : Command.ofLine? text = some (.ok c))
    (hr : (d.session.perform d.output.files d.renderer c).reply = .done said)
    (he : Effect d.session c e.session said)

theorem outcome_of_turn (hs : d.session.Sound) (h : d.turn (.line text) = (some e, said)) :
    d.Outcome text e said := by
  cases hl : Command.ofLine? text
  case none   =>
    simp only [turn, hl, Prod.mk.injEq, Option.some.injEq] at h
    exact .ignored hl (h.left ▸ rfl)
  case some r =>
    cases r
    case error misuse =>
      simp only [turn, hl, Prod.mk.injEq, Option.some.injEq] at h
      exact .misused hl (h.right ▸ misuse.complaint) (h.left ▸ rfl)
    case ok c         =>
      have hx : c ≠ .exit := by
        rintro rfl
        simp [turn, hl] at h
      have ⟨output, ht⟩ := turn_command (d := d) hl hx
      have hf : Fits d.session c (d.session.perform d.output.files d.renderer c) := hs.perform_fits
      generalize hp : d.session.perform d.output.files d.renderer c = r at hf ht
      rw [ht, Prod.mk.injEq, Option.some.injEq] at h
      obtain ⟨rfl, rfl⟩ := h
      cases hf
      case refused hc => exact .refused hl (complains_of_refused hl hc) rfl
      case done he    => exact .done hl (congrArg (·.reply) hp) he

theorem turn_of_fails (hs : d.session.Sound) (h : d.Fails text) :
    ∃ e said, d.turn (.line text) = (some e, said) ∧ Complains text said ∧
      e.session = d.session := by
  obtain ⟨e, said, ht⟩ : ∃ e said, d.turn (.line text) = (some e, said) := by
    rw [Fails] at h
    split at h
    case h_1      => cases h
    case h_2 hl   => exact ⟨_, _, by rw [turn, hl]⟩
    case h_3 c hl =>
      have ⟨_, hr⟩ := h
      have ⟨_, ht⟩ := turn_command (d := d) hl fun hx => by
        subst hx
        cases hr
      exact ⟨_, _, ht⟩
  refine ⟨e, said, ht, ?_⟩
  rw [Fails] at h
  cases outcome_of_turn hs ht
  case ignored hl _     => simp only [hl] at h
  case misused hc he    => exact ⟨hc, he⟩
  case refused hc he    => exact ⟨hc, he⟩
  case done hl hr _     => simp [hl, hr] at h

theorem session_of_complains (hs : d.session.Sound) (h : d.turn (.line text) = (some e, said))
    (hc : Complains text said) : e.session = d.session := by
  cases outcome_of_turn hs h
  case ignored he    => exact he
  case misused he    => exact he
  case refused he    => exact he
  case done hl _ he  => exact eq_of_complains hl hs he hc

theorem touches_of_turn (hs : d.session.Sound) (h : d.turn (.line text) = (some e, said))
    (hn : ¬Complains text said) : Touches text d.session e.session := by
  rw [Touches]
  cases outcome_of_turn hs h
  case ignored hl he    => simpa only [hl] using he
  case misused hl _ he  => simpa only [hl] using he
  case refused hc _     => exact absurd hc hn
  case done hl _ he     => simpa only [hl] using touches_of_effect he

theorem turn_of_edits (hs : d.session.Sound) (h : Edits (lineWords text) name edit)
    (hd : d.session.automata.find? name = some (.dfa dfa)) :
    ¬d.Fails text ∧ ∃ e dfa', d.turn (.line text) = (some e, announcement edit dfa dfa') ∧
      edit.change.run dfa = .ok () dfa' ∧ e.session = d.session.setAutomaton name (.dfa dfa') := by
  have ⟨c, hl, hc⟩ := h.exists_command
  have ⟨dfa', records, hr, hp⟩ := hs.perform_edit d.output.files d.renderer hc hd
  have hx : c ≠ .exit := by
    rintro rfl
    cases hc
  have ⟨output, ht⟩ := turn_command (d := d) hl hx
  rw [hp] at ht
  refine ⟨?_, _, dfa', ht, hr, rfl⟩
  simp [Fails, hl, hp]

theorem sound_of_turn (hs : d.session.Sound) (h : d.turn entry = (some e, said)) :
    e.session.Sound := by
  cases entry
  case interrupt => cases h; exact hs
  case line text =>
    cases outcome_of_turn hs h
    case ignored he   => exact he ▸ hs
    case misused he   => exact he ▸ hs
    case refused he   => exact he ▸ hs
    case done he      => exact he.sound hs

-- The dialogue after some entries, or where one of them ends it.
def after (d : Dialogue) : List Entry → Dialogue
  | [] => d
  | entry :: entries =>
    match d.turn entry with
    | (none, _)   => d
    | (some e, _) => e.after entries

-- What each line does to the session, failures told by what is said.
structure Atomic (d : Dialogue) : Prop where
  sound   : ∀ name m, d.session.automata.find? name = some m → m.Sound
  failed  : ∀ text e said, d.turn (.line text) = (some e, said) → Complains text said →
    e.session = d.session
  touched : ∀ text e said, d.turn (.line text) = (some e, said) → ¬Complains text said →
    Touches text d.session e.session
  refused : ∀ text, d.Fails text → ∃ e said, d.turn (.line text) = (some e, said) ∧
    Complains text said ∧ e.session = d.session
  edited  : ∀ text name edit dfa, Edits (lineWords text) name edit →
    d.session.automata.find? name = some (.dfa dfa) → ¬d.Fails text ∧
      ∃ e dfa', d.turn (.line text) = (some e, announcement edit dfa dfa') ∧
        edit.change.run dfa = .ok () dfa' ∧ e.session = d.session.setAutomaton name (.dfa dfa')

namespace Reached

theorem after (hd : d.Reached) {entries : List Entry} : (d.after entries).Reached := by
  induction entries generalizing d
  case nil                   => exact hd
  case cons entry entries hi =>
    rw [Dialogue.after]
    cases h : d.turn entry
    case mk next said =>
      cases next
      case none   => exact hd
      case some e => exact hi (hd.turn h)

theorem sound (hd : d.Reached) : d.session.Sound := by
  induction hd
  case start       => exact nofun
  case turn h hs   => exact sound_of_turn hs h
  case meanwhile h => exact h

end Reached

-- A dialogue with the DFA of a grammar.
def startedDialogue : Dialogue :=
  let files := Session.fileOf
    "1:\nG:\n# Alphabet\na\n# Variables\nS\n# Start\nS\n# Rules\nS -> a\n"
  let output : Log.Output := ⟨files, "", ⟨2024, 1, 1, 0, 0, 0⟩⟩
  after { renderer := .undrawn, config := ⟨.warning, none, none⟩, output }
    [.line "load grammars.txt", .line "to_dfa G D"]

def startedDFA : DFA String where
  states      := .ofList ["F_G", "S"]
  alphabet    := ["a"]
  start       := "S"
  accepting   := .ofList ["F_G"]
  transitions := .ofList [("S", .ofList [("a", "F_G")])]

end Dialogue
end RightLinear.Terminal
