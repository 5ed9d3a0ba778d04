import RightLinear.Proofs.DFA.Complete
import RightLinear.Proofs.NFA.Determinize
import RightLinear.Proofs.NFA.Growth
import RightLinear.Proofs.NFA.Trail
import RightLinear.Terminal.Session

namespace RightLinear

-- Some symbol of a word is not among the symbols given.
def Foreign (symbols w : List String) : Prop :=
  ∃ a ∈ w, a ∉ symbols

instance {symbols w : List String} : Decidable (Foreign symbols w) :=
  inferInstanceAs (Decidable (∃ a ∈ w, a ∉ symbols))

theorem DFA.Valid.rejects_foreign {d : DFA String} {w : List String} (hv : d.Valid)
    (h : Foreign d.alphabet w) : d.accepts w = false := by
  apply hv.accepts_eq_false
  simpa [Foreign] using h

namespace NFA

variable {n : NFA} {r : Arrow String} {s t u a : String} {v w : List String} {e : DFA String}

-- An arrow that some path from the start state to an accepting state goes along.
structure OnTheWay (n : NFA) (r : Arrow String) : Prop where
  arrow  : r ∈ n.arrows
  before : ∃ s u, n.start = some s ∧ n.Path s u r.source
  after  : ∃ t ∈ n.accepting, ∃ v, n.Path r.target v t

-- The path to the target of an arrow may make ε-moves before the arrow.
theorem exists_onTheWay_iff :
    (∃ r, n.OnTheWay r ∧ r.symbol = a) ↔ ∃ w, a ∈ w ∧ n.accepts w = true := by
  constructor
  case mp =>
    intro ⟨r, ⟨hr, ⟨s, u, hs, p⟩, t, ht, v, q⟩, ha⟩
    have q : n.Path r.source (a :: v) t := ha ▸ .read (mem_arrows_iff.mp hr) q
    exact ⟨u ++ a :: v, by simp, accepts_iff_path.mpr ⟨s, hs, t, ht, p.append q⟩⟩
  case mpr =>
    intro ⟨w, ha, hw⟩
    have ⟨u, v, he⟩ := List.append_of_mem ha
    have ⟨s, hs, t, ht, p⟩ := accepts_iff_path.mp (he ▸ hw)
    have ⟨x, p, q⟩ := path_append_iff.mp p
    have ⟨y, hy, z, hz, q⟩ := path_cons_iff.mp q
    have hr : ⟨y, a, z⟩ ∈ n.arrows := mem_arrows_iff.mpr hz
    exact ⟨⟨y, a, z⟩, ⟨hr, ⟨s, _, hs, p.append (path_nil_iff.mpr hy)⟩, t, ht, v, q⟩, rfl⟩

-- An ε-move is on the way of some accepted word.
def PassesSilently (n : NFA) : Prop :=
  ∃ r, n.OnTheWay r ∧ r.symbol = epsilon

theorem Path.dropSilent (p : n.Path s w t) : n.Path s (dropSilent w) t := by
  induction p
  case nil         => exact .nil _
  case skip h _ hi => exact .skip h hi
  case read a w h _ hi =>
    by_cases he : a = epsilon
    case pos =>
      have hs : NFA.dropSilent (a :: w) = NFA.dropSilent w := by simp [NFA.dropSilent, he]
      exact hs ▸ .skip (he ▸ h) hi
    case neg =>
      have hs : NFA.dropSilent (a :: w) = a :: NFA.dropSilent w := by simp [NFA.dropSilent, he]
      exact hs ▸ .read h hi

-- Without the ε in it an accepted word is accepted all the same.
theorem accepts_dropSilent (h : n.accepts w = true) : n.accepts (dropSilent w) = true :=
  have ⟨s, hs, t, ht, p⟩ := accepts_iff_path.mp h
  accepts_iff_path.mpr ⟨s, hs, t, ht, p.dropSilent⟩

namespace Valid

variable (hv : n.Valid)
include hv

theorem symbol_mem_of_accepts (h : n.accepts w = true) (ha : a ∈ w) :
    a ∈ n.alphabet ∨ a = epsilon :=
  have ⟨_, hr, hs⟩ := exists_onTheWay_iff.mpr ⟨w, ha, h⟩
  hs ▸ hv.symbol_mem (mem_arrows_iff.mp hr.arrow)

theorem rejects_foreign (h : Foreign (epsilon :: n.alphabet) w) : n.accepts w = false :=
  have ⟨_, ha, hn⟩ := h
  Bool.eq_false_iff.mpr fun hw =>
    hn (List.mem_cons.mpr (hv.symbol_mem_of_accepts hw ha).symm)

-- An NFA takes ε in a word for an ε-move that has to be made there; it rejects all other foreign
-- symbols, and its DFA rejects ε as well.
theorem rejects_foreign_iff :
    (∀ w, Foreign n.alphabet w → n.accepts w = false) ↔ ¬n.PassesSilently := by
  constructor
  case mp =>
    intro h hp
    have ⟨w, he, hw⟩ := exists_onTheWay_iff.mp hp
    exact absurd hw (by simp [h w ⟨epsilon, he, hv.epsilon_not_mem⟩])
  case mpr =>
    intro hp w ⟨a, ha, hn⟩
    refine Bool.eq_false_iff.mpr fun hw => hp (exists_onTheWay_iff.mpr ⟨w, ?_, hw⟩)
    exact (hv.symbol_mem_of_accepts hw ha).resolve_left hn ▸ ha

theorem toDFA_rejects_foreign (h : n.toDFA = .ok e) (hw : Foreign n.alphabet w) :
    e.accepts w = false := by
  have ⟨s, _, he⟩ := exists_of_toDFA_eq_ok h
  have ha : e.alphabet = n.alphabet := he ▸ rfl
  exact (hv.of_toDFA h).rejects_foreign (ha ▸ hw)

end Valid
end NFA

namespace Terminal.Session

variable {s : Session} {m : Machine} {files : FileSystem} {renderer : Diagram.Renderer}
  {name word : String}

-- The marks of the empty word are no words of symbols.
theorem reply_test (h : s.automata.find? name = some m) (hw : word ∉ ["ε", "eps"]) :
    (s.perform files renderer (.test name word)).reply =
      .done (line (if m.accepts (symbolsOf word) then "ACCEPTED" else "REJECTED")) := by
  have ⟨h₁, h₂⟩ : word ≠ "ε" ∧ word ≠ "eps" := by simpa using hw
  simp [perform, withAutomaton, automaton, h, h₁, h₂, say]

end Terminal.Session

open Terminal in
theorem foreign_rejected {n : NFA} {d : DFA String} (hn : n.Valid) (hd : d.Valid) :
    (∀ w, Foreign d.alphabet w → d.accepts w = false) ∧
    (∀ w, Foreign (epsilon :: n.alphabet) w → n.accepts w = false) ∧
    (∀ w, n.accepts w = true → n.accepts (NFA.dropSilent w) = true) ∧
    ((∀ w, Foreign n.alphabet w → n.accepts w = false) ↔ ¬n.PassesSilently) ∧
    (∀ e, n.toDFA = .ok e →
      ((∀ w, Foreign n.alphabet w → n.accepts w = e.accepts w) ↔ ¬n.PassesSilently)) ∧
    ∀ (s : Session) files renderer name word, word ∉ ["ε", "eps"] →
      s.automata.find? name = some (.dfa d) ∧ Foreign d.alphabet (symbolsOf word) ∨
        s.automata.find? name = some (.nfa n) ∧
          Foreign (epsilon :: n.alphabet) (symbolsOf word) →
      (s.perform files renderer (.test name word)).reply = .done (Session.line "REJECTED") := by
  refine ⟨fun _ => hd.rejects_foreign, fun _ => hn.rejects_foreign, fun _ => NFA.accepts_dropSilent,
    hn.rejects_foreign_iff, fun e he => ?agree, fun s files _ name word hw h => ?reply⟩
  case agree =>
    rw [← hn.rejects_foreign_iff]
    exact forall₂_congr fun w hw => by rw [hn.toDFA_rejects_foreign he hw]
  case reply =>
    cases h
    case inl h => simp [Session.reply_test h.left hw, Machine.accepts, hd.rejects_foreign h.right]
    case inr h => simp [Session.reply_test h.left hw, Machine.accepts, hn.rejects_foreign h.right]

-- The only way to the accepting state begins with an ε-move.
def NFA.skipping : NFA :=
  let bare := { NFA.empty with alphabet := ["a"] }
  ((((bare.setStart "S").addAccepting "B").link "S" epsilon "A").link "A" "a" "B")

theorem NFA.passesSilently_skipping : skipping.PassesSilently := by
  have hr : ⟨"S", epsilon, "A"⟩ ∈ skipping.arrows := by decide +kernel
  have ht : "B" ∈ skipping.targets "A" "a" := by decide +kernel
  exact ⟨_, ⟨hr, ⟨"S", [], rfl, .nil "S"⟩, "B", by decide +kernel, ["a"], .read ht (.nil "B")⟩, rfl⟩

theorem foreign_rejected_skipping : NFA.skipping.Valid ∧ DFA.dead.Valid ∧
    DFA.dead.accepts [epsilon] = false ∧ NFA.skipping.accepts ["a", "b", epsilon] = false ∧
    ∃ w, Foreign NFA.skipping.alphabet w ∧ NFA.skipping.accepts w = true := by
  have hn : NFA.skipping.Valid := by decide +kernel
  have hd : DFA.dead.Valid := by decide +kernel
  have ⟨hw, hw', _, hp, _⟩ := foreign_rejected hn hd
  refine ⟨hn, hd, hw _ (by decide +kernel), hw' _ (by decide +kernel), ?_⟩
  by_contra! h
  exact hp.mp (fun w hf => by simpa using h w hf) NFA.passesSilently_skipping

-- The NFA makes its ε-move where the word has ε; the DFA has no transition for it.
theorem not_foreign_rejected_skipping : NFA.skipping.Valid ∧
    epsilon ∉ NFA.skipping.alphabet ∧ NFA.skipping.accepts [epsilon, "a"] = true ∧
    ∃ e, NFA.skipping.toDFA = .ok e ∧ e.accepts [epsilon, "a"] = false := by
  refine ⟨by decide +kernel, by decide +kernel, by decide +kernel, _, NFA.toDFA_eq rfl, ?_⟩
  decide +kernel

end RightLinear
