import RightLinear.Proofs.DFA.Computed
import RightLinear.Proofs.Grammar.Refused
import RightLinear.Proofs.InPlace
import RightLinear.Proofs.Report.Legible
import RightLinear.Proofs.Terminal.Command
import RightLinear.Proofs.Terminal.Reply

namespace RightLinear.Terminal

def Machine.Sound : Machine → Prop
  | .nfa n => n.Valid
  | .dfa d => d.Valid ∧ d.NoStrayRow

def Session.Sound (s : Session) : Prop :=
  ∀ name m, s.automata.find? name = some m → m.Sound

theorem Misuse.complaint {names : List String} {pair : Prop} :
    (misuse : Misuse) → Complaint names pair (Session.line misuse.message)
  | usage _   => .of_head (by decide : "Usage: " ∈ failureHeads)
  | unknown _ => .of_head (by decide : "Unknown command: " ∈ failureHeads)

namespace Session

-- What a command that is carried out makes of a session, and what it says.
inductive Effect (s : Session) : Command → Session → String → Prop
  | loaded {file : String} {t : Session} {cases : Nat} {keys : List String}
    (ha : t.automata = s.automata) : Effect s (.load file) t (line (loadText cases keys))
  | made {c : Command} {name opening : String} {m : Machine} (hc : c.result? = some name)
    (hm : m.Sound) (ho : opening = "Created: " ∨ opening = "Created automaton: ") :
    Effect s c (s.setAutomaton name m) (line (opening ++ name))
  | changed {c : Command} {name : String} {edit : DFA.Edit} {d e : DFA String}
    (hc : c.edit? = some (name, edit)) (hd : s.automata.find? name = some (.dfa d))
    (he : edit.apply d = .ok e) :
    Effect s c (s.setAutomaton name (.dfa e)) (announcement edit d e)
  | deleted {name : String} : Effect s (.delete name)
    { s with automata := s.automata.erase name, grammars := s.grammars.erase name }
    (line ("Deleted: " ++ name))
  | cleared : Effect s .clear {} (line "Cleared all")
  | shown {c : Command} {said : String} (hc : c.shows = true) : Effect s c s said

-- A reaction to a command is a complaint and nothing else, or the command has its effect.
inductive Fits (s : Session) (c : Command) : Reaction → Prop
  | refused {files : FileSystem} {said : String} {records : List Log.Record}
    (h : Complaint c.operands (c.isProduct = true) said) :
    Fits s c ⟨s, files, .refused said, records⟩
  | done {t : Session} {files : FileSystem} {said : String} {records : List Log.Record}
    (h : Effect s c t said) : Fits s c ⟨t, files, .done said, records⟩

variable {s t : Session} {files : FileSystem} {renderer : Diagram.Renderer} {c : Command}
  {names : List String} {pair : Prop} {name result text said : String}

theorem automaton_eq_ok_iff {m : Machine} :
    s.automaton name = .ok m ↔ s.automata.find? name = some m := by
  rw [automaton]
  cases s.automata.find? name <;> simp

theorem dfa_eq_ok_iff {d : DFA String} :
    s.dfa name = .ok d ↔ s.automata.find? name = some (.dfa d) := by
  rw [dfa, ← automaton_eq_ok_iff]
  cases s.automaton name
  case error => simp
  case ok m  => cases m <;> simp

theorem complaint_of_grammar (h : s.grammar name = .error text) :
    Complaint names pair (line text) := by
  rw [grammar] at h
  cases hg : s.grammars.find? name <;> simp only [hg, reduceCtorEq] at h
  exact Except.error.inj h ▸ .of_head (by decide : "Grammar not found: " ∈ failureHeads)

theorem complaint_of_automaton (h : s.automaton name = .error text) :
    Complaint names pair (line text) := by
  rw [automaton] at h
  cases hm : s.automata.find? name <;> simp only [hm, reduceCtorEq] at h
  exact Except.error.inj h ▸ .of_head (by decide : "Automaton not found: " ∈ failureHeads)

theorem complaint_of_dfa (hn : name ∈ names) (h : s.dfa name = .error text) :
    Complaint names pair (line text) := by
  rw [dfa] at h
  cases hm : s.automaton name
  case error =>
    rw [hm] at h
    exact Except.error.inj h ▸ complaint_of_automaton hm
  case ok m  =>
    rw [hm] at h
    cases m
    case dfa => cases h
    case nfa =>
      have ht : "is an NFA; convert it with to_dfa first" ∈ failureTails := by decide
      exact .named hn ht (by simp [← Except.error.inj h, tailLine, String.append_assoc])

theorem fits_fail {message : String} : Fits s c (s.fail files message) :=
  .refused .error

theorem fits_say (hc : c.shows = true) : Fits s c (s.say files text) :=
  .done (.shown hc)

theorem fits_withGrammar {f : Grammar → Reaction} (h : ∀ g, Fits s c (f g)) :
    Fits s c (s.withGrammar files name f) := by
  rw [withGrammar]
  cases hg : s.grammar name
  case error => exact .refused (complaint_of_grammar hg)
  case ok g  => exact h g

theorem fits_withAutomaton {f : Machine → Reaction} (h : ∀ m, Fits s c (f m)) :
    Fits s c (s.withAutomaton files name f) := by
  rw [withAutomaton]
  cases hm : s.automaton name
  case error => exact .refused (complaint_of_automaton hm)
  case ok m  => exact h m

theorem fits_withDFA {f : DFA String → Reaction} (hn : name ∈ c.operands)
    (h : ∀ d, s.automata.find? name = some (.dfa d) → Fits s c (f d)) :
    Fits s c (s.withDFA files name f) := by
  rw [withDFA]
  cases hd : s.dfa name
  case error => exact .refused (complaint_of_dfa hn hd)
  case ok d  => exact h d (dfa_eq_ok_iff.mp hd)

theorem fits_keep {opening : String} {records : List Log.Record} {made : Except Error Machine}
    (hc : c.result? = some result) (h : ∀ m, made = .ok m → m.Sound)
    (ho : opening = "Created: " ∨ opening = "Created automaton: ") :
    Fits s c (s.keep files result opening records made) := by
  cases made
  case error => exact .refused .error
  case ok m  => exact .done (.made hc (h m rfl) ho)

theorem fits_relabel (edit : DFA.Edit) {d : DFA String} (hc : c.edit? = some (name, edit))
    (hd : s.automata.find? name = some (.dfa d))
    (ha : ∀ e, announcement edit d e = line ("Renamed: " ++ ", ".intercalate e.orderedStates)) :
    Fits s c (s.relabel files name (edit.apply d)) := by
  cases he : edit.apply d
  case error => exact fits_fail
  case ok e  =>
    rw [relabel, ← ha]
    exact .done (.changed hc hd he)

theorem automata_foldl_addCase {cases : List TestCase} {keys : List String} :
    (cases.foldl addCase (s, keys)).1.automata = s.automata := by
  induction cases generalizing s keys
  case nil         => rfl
  case cons c _ hi => rw [List.foldl_cons, addCase_eq, hi]

theorem fits_load {file : String} : Fits s (.load file) (s.load files file) := by
  cases h : files.loadCases file
  case error e    =>
    rw [load, h]
    exact .refused .error
  case ok reading =>
    have hr := (s.load_eq h).right
    simp only [load, h] at hr ⊢
    rw [hr]
    exact .done (.loaded automata_foldl_addCase)

theorem fits_run {file : String} {renames : Option String} :
    Fits s (.run file renames) (s.run files file renames) := by
  simp only [run]
  split
  case h_1 => exact fits_fail
  case h_2 =>
    cases files.loadCases file
    case error      => exact .refused .error
    case ok reading =>
      simp only
      split
      case h_1 => exact .refused .error
      case h_2 => exact .done (.shown rfl)

theorem fits_words {bound : String} : Fits s (.words name bound) (s.words files name bound) := by
  refine fits_withGrammar fun g => ?_
  cases Text.integer bound.toList
  case error => exact fits_fail
  case ok k  =>
    simp only
    cases g.derive k
    case error => exact fits_fail
    case ok    => exact fits_say rfl

theorem fits_graph {m : Machine} : Fits s (.graph name) (s.graph files renderer name m) := by
  rw [graph]
  split
  case h_1 => exact fits_fail
  case h_2 => exact fits_say rfl

theorem sound_of_toNFA {g : Grammar} {m : Machine} (h : g.toNFA.map .nfa = .ok m) : m.Sound := by
  cases hn : g.toNFA <;> rw [hn] at h
  case error => cases h
  case ok n  => exact Except.ok.inj h ▸ (Grammar.valid_of_toNFA hn).left

theorem sound_of_toDFA {n : NFA} {m : Machine} (hn : n.Valid) (h : n.toDFA.map .dfa = .ok m) :
    m.Sound := by
  cases hd : n.toDFA <;> rw [hd] at h
  case error => cases h
  case ok d  => exact Except.ok.inj h ▸ ⟨hn.of_toDFA hd, NFA.noStrayRow_of_toDFA hd⟩

theorem sound_of_grammar {g : Grammar} {m : Machine} (h : g.toDFA.map .dfa = .ok m) : m.Sound := by
  cases hd : g.toDFA <;> rw [hd] at h
  case error => cases h
  case ok d  =>
    have ⟨n, _, hn⟩ := exists_of_bind_eq_ok hd
    exact Except.ok.inj h ▸ ⟨(Grammar.built_of_toDFA hd).valid, NFA.noStrayRow_of_toDFA hn⟩

theorem sound_of_product {op : Operation} {d₁ d₂ : DFA String} {m : Machine}
    (h : (DFA.product op d₁ d₂).map .dfa = .ok m) : m.Sound := by
  cases hd : DFA.product op d₁ d₂ <;> rw [hd] at h
  case error => cases h
  case ok d  =>
    have hv : d.Valid := DFA.valid_of_make (DFA.make_of_product hd)
    exact Except.ok.inj h ▸ ⟨hv, DFA.noStrayRow_of_product hd⟩

theorem Sound.fits_toDFA (hs : s.Sound) :
    Fits s (.toDFA name result) (s.toDFA files name result) := by
  rw [toDFA]
  split
  case h_1 =>
    have ht : "is already a DFA" ∈ failureTails := by decide
    exact .refused (.named (.head _) ht (by simp [tailLine, String.append_assoc]))
  case h_2 hn => exact fits_keep rfl (fun _ => sound_of_toDFA (hs _ _ hn)) (.inl rfl)
  case h_3 => exact fits_keep rfl (fun _ => sound_of_grammar) (.inl rfl)
  case h_4 => exact .refused (.of_head (by decide : "Not found: " ∈ failureHeads))

theorem fits_product {op : Operation} {left right : String} :
    Fits s (.product op left right result) (s.product files op left right result) := by
  rw [product]
  split
  case h_1     => exact fits_keep rfl (fun _ => sound_of_product) (.inl rfl)
  case h_2 h _ => exact .refused ((complaint_of_dfa (.head _) h).append rfl)
  case h_3 h _ => exact .refused (complaint_of_dfa (.head _) h)
  case h_4 h   => exact .refused (complaint_of_dfa (.tail _ (.head _)) h)

theorem fits_trim {d : DFA String} (hd : s.automata.find? name = some (.dfa d)) :
    Fits s (.trim name) (s.trim files name d) := by
  have he : DFA.Edit.trim.apply d = .ok d.trim := rfl
  exact .done (.changed rfl hd he)

theorem fits_delete : Fits s (.delete name) (s.delete files name) := by
  rw [delete]
  split
  case isTrue  => exact .done .deleted
  case isFalse => exact .refused (.of_head (by decide : "Not found: " ∈ failureHeads))

theorem Sound.perform_fits (hs : s.Sound) : Fits s c (s.perform files renderer c) := by
  cases c
  case exit          => exact fits_say rfl
  case help          => exact fits_say rfl
  case load          => exact fits_load
  case list          => exact fits_say rfl
  case run           => exact fits_run
  case showGrammar   => exact fits_withGrammar fun _ => fits_say rfl
  case words         => exact fits_words
  case toDFA         => exact hs.fits_toDFA
  case showAutomaton => exact fits_withAutomaton fun _ => fits_say rfl
  case printDFA      => exact fits_withDFA (.head _) fun _ _ => fits_say rfl
  case graph         => exact fits_withAutomaton fun _ => fits_graph
  case test          => exact fits_withAutomaton fun _ => fits_say rfl
  case product       => exact fits_product
  case trim          => exact fits_withDFA (.head _) fun _ => fits_trim
  case delete        => exact fits_delete
  case clear         => exact .done .cleared
  case toNFA         =>
    exact fits_withGrammar fun _ => fits_keep rfl (fun _ => sound_of_toNFA) (.inr rfl)
  case complete      =>
    refine fits_withDFA (.head _) fun d hd => fits_keep rfl (fun m hm => ?_) (.inl rfl)
    exact Except.ok.inj hm ▸ ⟨(hs _ _ hd).left.complete, DFA.noStrayRow_complete⟩
  case complement    =>
    refine fits_withDFA (.head _) fun d hd => fits_keep rfl (fun m hm => ?_) (.inl rfl)
    exact Except.ok.inj hm ▸ ⟨(hs _ _ hd).left.complement, DFA.noStrayRow_complement⟩
  case rename        =>
    exact fits_withDFA (.head _) fun _ hd => fits_relabel .relabelReadable rfl hd fun _ => rfl
  case renameWith m  =>
    exact fits_withDFA (.head _) fun _ hd => fits_relabel (.relabelWith m) rfl hd fun _ => rfl

theorem sound_of_apply {edit : DFA.Edit} {d e : DFA String} (hd : Machine.Sound (.dfa d))
    (h : edit.apply d = .ok e) : Machine.Sound (.dfa e) := by
  refine ⟨(DFA.Edit.valid_of_apply hd.left h).left, ?_⟩
  cases edit
  case trim            => exact Except.ok.inj h ▸ DFA.noStrayRow_trim
  case relabelReadable => exact hd.right.of_relabel h
  case relabelWith     => exact hd.right.of_relabel h

theorem Sound.setAutomaton {m : Machine} (hs : s.Sound) (hm : m.Sound) :
    (s.setAutomaton name m).Sound := by
  intro k m' h
  rw [Session.setAutomaton, Table.find?_insert] at h
  split at h
  case isTrue  => exact Option.some.inj h ▸ hm
  case isFalse => exact hs k m' h

theorem Effect.sound (he : Effect s c t said) (hs : s.Sound) : t.Sound := by
  cases he
  case loaded ha        => exact fun k m h => hs k m (ha ▸ h)
  case made hm _ _      => exact hs.setAutomaton hm
  case changed hd he _  => exact hs.setAutomaton (sound_of_apply (hs _ _ hd) he)
  case cleared          => exact nofun
  case shown            => exact hs
  case deleted          =>
    intro k m h
    rw [Table.find?_erase] at h
    split at h
    case isTrue  => cases h
    case isFalse => exact hs k m h

-- A DFA that is there can be trimmed and relabelled, with all checks.
theorem exists_apply (edit : DFA.Edit) {d : DFA String} (hd : Machine.Sound (.dfa d)) :
    ∃ e, edit.apply d = .ok e ∧ edit.change.run d = .ok () e := by
  have hr (f : String → String) : ∃ e, d.relabel f = .ok e :=
    ⟨_, DFA.relabel_eq_ok_iff.mpr ⟨hd.right, rfl⟩⟩
  obtain ⟨e, he⟩ : ∃ e, edit.apply d = .ok e := by
    cases edit
    case trim            => exact ⟨_, rfl⟩
    case relabelReadable => exact hr _
    case relabelWith     => exact hr _
  exact ⟨e, he, edit.run_change_of_ok hd.left he⟩

theorem Sound.perform_edit {edit : DFA.Edit} {d : DFA String} (hs : s.Sound) (files : FileSystem)
    (renderer : Diagram.Renderer) (hc : c.edit? = some (name, edit))
    (hd : s.automata.find? name = some (.dfa d)) :
    ∃ e records, edit.change.run d = .ok () e ∧ s.perform files renderer c =
      ⟨s.setAutomaton name (.dfa e), files, .done (announcement edit d e), records⟩ := by
  have ⟨e, he, hr⟩ := exists_apply edit (hs _ _ hd)
  have hw {f : DFA String → Reaction} : s.withDFA files name f = f d := by
    rw [withDFA, dfa_eq_ok_iff.mpr hd]
  refine ⟨e, ?_⟩
  cases c <;> cases hc
  case trim       =>
    obtain rfl : d.trim = e := Except.ok.inj he
    exact ⟨_, hr, hw⟩
  case rename     => exact ⟨_, hr, hw.trans (congrArg (s.relabel files name) he)⟩
  case renameWith => exact ⟨_, hr, hw.trans (congrArg (s.relabel files name) he)⟩

-- A line that tells of a failure where a command is carried out can be written by labels with
-- spaces alone, and then they were there before.
theorem Effect.eq_of_complaint (he : Effect s c t said) (hs : s.Sound) (hw : c.Worded)
    (hn : ∀ n ∈ names, ' ' ∉ n.toList) (ho : c.operands ⊆ names)
    (h : Complaint names (c.isProduct = true) said) : t = s := by
  cases he
  case loaded                      => exact absurd h (not_complaint_loaded hn)
  case cleared                     => exact absurd h (not_complaint_cleared hn)
  case shown                       => rfl
  case deleted name                =>
    have hb := hn name (ho (.head _))
    exact absurd h (not_complaint_of_name hn (by decide : "Deleted:" ∈ openings) rfl hb)
  case made name _ m hm ho hc      =>
    have hb : ' ' ∉ name.toList := by
      cases c <;> cases hc <;> exact hw
    obtain rfl | rfl := ho
    · exact absurd h (not_complaint_of_name hn (by decide : "Created:" ∈ openings) rfl hb)
    · exact absurd h (not_complaint_createdAutomaton hn)
  case changed name edit d e hd he hc =>
    have ⟨hv, hr⟩ : Machine.Sound (.dfa d) := hs _ _ hd
    have hp : ¬c.isProduct = true := by
      cases c <;> cases hc <;> exact Bool.false_ne_true
    suffices hu : e = d by rw [hu, Session.setAutomaton, Table.insert_eq_self hd]
    cases edit
    case trim            => exact absurd h (not_complaint_trimmed hn)
    case relabelReadable =>
      refine eq_of_complaint_renamed hn hv hr he (fun s hm label hl hb => ?_) hp h
      have hi : Text.IsWord ((d.readableLabels.find? s).getD s) := isWord_readableLabel hm
      rw [hl, Option.getD_some] at hi
      exact absurd (hi.not_blank ' ' hb) (by decide)
    case relabelWith map =>
      refine eq_of_complaint_renamed hn hv hr he (fun s _ label hl => ?_) hp h
      cases c <;> cases hc
      exact hw s label hl

end Session
end RightLinear.Terminal
