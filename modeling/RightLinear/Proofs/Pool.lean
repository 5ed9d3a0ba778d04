import RightLinear.Pool
import RightLinear.Proofs.DFA.Product
import RightLinear.Proofs.InPlace
import RightLinear.Proofs.NFA.Determinize

namespace RightLinear.Pool

section

variable {α : Type} {P : α → Prop} {l : List α} {i : Nat} {c : Change α Unit} {e : Error}

theorem forall_mem_modify {f : α → α} (h : ∀ a ∈ l, P a) (hf : ∀ a, P a → P (f a)) :
    ∀ a ∈ l.modify i f, P a := by
  intro b hb
  have ⟨j, hj⟩ := List.mem_iff_getElem?.mp hb
  rw [List.getElem?_modify] at hj
  have ⟨a, ha, he⟩ := Option.map_eq_some_iff.mp hj
  have hp := h a (List.mem_of_getElem? ha)
  split at he
  case isTrue  => exact he ▸ hf a hp
  case isFalse => exact he ▸ hp

theorem modify_of_error (hc : c.Safe P) (h : l[i]? >>= c.error? = some e) :
    l.modify i c.after = l := by
  have ⟨a, ha, he⟩ := Option.bind_eq_some_iff.mp h
  apply List.ext_getElem?
  intro j
  rw [List.getElem?_modify]
  by_cases hi : i = j
  case neg => simp [hi]
  case pos => simp [← hi, ha, hc.undone a e he]

end

variable {p : Pool} {c : Call} {calls : List Call} {e : Error} {d : DFA String}

structure Valid (p : Pool) : Prop where
  nfas : ∀ n ∈ p.nfas, n.Valid
  dfas : ∀ d ∈ p.dfas, d.Valid

theorem valid_of_map {α : Type} {a? : Option α} {f : α → Except Error (DFA String)}
    (hf : ∀ a d, f a = .ok d → d.Valid) (h : a?.map f = some (.ok d)) : d.Valid :=
  have ⟨a, _, h⟩ := Option.map_eq_some_iff.mp h
  hf a d h

theorem valid_of_bind_map {α : Type} {a? b? : Option α} {f : α → α → Except Error (DFA String)}
    (hf : ∀ a b d, f a b = .ok d → d.Valid) (h : (a? >>= fun a => b?.map (f a)) = some (.ok d)) :
    d.Valid :=
  have ⟨a, _, h⟩ := Option.bind_eq_some_iff.mp h
  valid_of_map (hf a) h

namespace Valid

variable (hp : p.Valid)
include hp

theorem keepNFA {r : Except Error NFA} (h : ∀ n, r = .ok n → n.Valid) : (p.keepNFA r).1.Valid := by
  cases r
  case error => exact hp
  case ok    => exact ⟨List.forall_mem_append.mpr ⟨hp.nfas, by simpa using h⟩, hp.dfas⟩

theorem keepDFA {r? : Option (Except Error (DFA String))}
    (h : ∀ d, r? = some (.ok d) → d.Valid) : (p.keepDFA r?).1.Valid := by
  match r? with
  | none            => exact hp
  | some (.error _) => exact hp
  | some (.ok _)    => exact ⟨hp.nfas, List.forall_mem_append.mpr ⟨hp.dfas, by simpa using h⟩⟩

theorem step : (p.step c).1.Valid := by
  cases c
  case newNFA       => exact hp.keepNFA fun _ => NFA.valid_of_make
  case newDFA       => exact hp.keepDFA fun _ h => DFA.valid_of_make (Option.some.inj h)
  case editNFA edit => exact ⟨forall_mem_modify hp.nfas edit.safe.preserves, hp.dfas⟩
  case editDFA edit => exact ⟨hp.nfas, forall_mem_modify hp.dfas edit.safe.preserves⟩
  case complete     => exact hp.keepDFA fun _ => valid_of_map fun _ _ => DFA.valid_of_make
  case complement   => exact hp.keepDFA fun _ => valid_of_map fun _ _ => DFA.valid_of_make
  case toDFA        =>
    refine hp.keepDFA fun _ => valid_of_map fun n d h => ?_
    have ⟨_, _, h⟩ := exists_of_bind_eq_ok h
    exact DFA.valid_of_make h
  case union        =>
    exact hp.keepDFA fun _ => valid_of_bind_map fun _ _ _ h =>
      DFA.valid_of_make (DFA.make_of_product h)
  case intersection =>
    exact hp.keepDFA fun _ => valid_of_bind_map fun _ _ _ h =>
      DFA.valid_of_make (DFA.make_of_product h)

theorem run : (p.run calls).Valid := by
  induction calls generalizing p
  case nil         => exact hp
  case cons c _ hi => exact hi hp.step

end Valid

theorem valid_empty : empty.Valid where
  nfas := nofun
  dfas := nofun

theorem keepNFA_of_error {r : Except Error NFA} (h : (p.keepNFA r).2 = some e) :
    (p.keepNFA r).1 = p := by
  cases r
  case error => rfl
  case ok    => cases h

theorem keepDFA_of_error {r? : Option (Except Error (DFA String))}
    (h : (p.keepDFA r?).2 = some e) : (p.keepDFA r?).1 = p := by
  match r? with
  | none            => rfl
  | some (.error _) => rfl
  | some (.ok _)    => cases h

theorem step_of_error (h : (p.step c).2 = some e) : (p.step c).1 = p := by
  cases c
  case newNFA       => exact keepNFA_of_error h
  case editNFA edit => exact congrArg ({ p with nfas := · }) (modify_of_error edit.safe h)
  case editDFA edit => exact congrArg ({ p with dfas := · }) (modify_of_error edit.safe h)
  all_goals exact keepDFA_of_error h

theorem stays_wellFormed :
    (∀ parts : NFA,
      ((∃ f, NFA.make parts = .error (.invalid f)) ↔
        parts.toAutomaton.Faulty .nfa parts.arrows) ∧
      ((∃ n, NFA.make parts = .ok n) ↔ ¬parts.toAutomaton.Faulty .nfa parts.arrows)) ∧
    (∀ parts : DFA String,
      ((∃ f, DFA.make parts = .error (.invalid f)) ↔
        parts.toAutomaton.Faulty .dfa parts.arrows) ∧
      ((∃ d, DFA.make parts = .ok d) ↔ ¬parts.toAutomaton.Faulty .dfa parts.arrows)) ∧
    (∀ calls, (∀ n ∈ (empty.run calls).nfas, n.Valid) ∧ ∀ d ∈ (empty.run calls).dfas, d.Valid) ∧
    ∀ (p : Pool) (c : Call) (e : Error), (p.step c).2 = some e → (p.step c).1 = p := by
  refine ⟨fun _ => ⟨NFA.make_eq_error_iff, ?_⟩, fun _ => ⟨DFA.make_eq_error_iff, ?_⟩, ?_, ?_⟩
  · simp [NFA.make_eq_ok_iff]
  · simp [DFA.make_eq_ok_iff]
  · exact fun calls => ⟨valid_empty.run.nfas, valid_empty.run.dfas⟩
  · exact fun p c e => step_of_error

-- An arrow by an undeclared symbol, then a union with a partial DFA, fail on the way; the labels of
-- a complete DFA are made one.
def growing : List Call :=
  [.newNFA { NFA.empty with alphabet := ["a", "b", "a"] }, .editNFA 0 (.setStart "p"),
    .editNFA 0 (.addTransition "p" "c" "q"), .editNFA 0 (.addTransition "p" "a" "q"),
    .editNFA 0 (.addAccepting "q"), .toDFA 0, .complete 0, .union 1 0,
    .editDFA 1 (.relabelWith (.ofList [("p", "r"), ("q", "r")])), .complement 0,
    .intersection 1 2, .editDFA 3 .trim, .editDFA 3 .relabelReadable]

theorem stays_wellFormed_growing : (empty.run growing).dfas.length = 4 ∧
    (∀ d ∈ (empty.run growing).dfas, d.Valid) ∧
    ((empty.run (growing.take 7)).step (.union 1 0)).2 =
      some (.notComplete (some "p") "b" "union") ∧
    ((empty.run (growing.take 7)).step (.union 1 0)).1 = empty.run (growing.take 7) := by
  have ⟨_, _, hv, hs⟩ := stays_wellFormed
  have he : ((empty.run (growing.take 7)).step (.union 1 0)).2 =
      some (.notComplete (some "p") "b" "union") := by decide +kernel
  exact ⟨by decide +kernel, (hv growing).right, he, hs _ _ _ he⟩

end RightLinear.Pool
