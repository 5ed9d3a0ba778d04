import RightLinear.Checked
import RightLinear.Proofs.Batch
import RightLinear.Proofs.Combine
import RightLinear.Proofs.Grammar.Refused
import RightLinear.Proofs.InPlace

namespace RightLinear

namespace Change

variable {α β : Type} {c k : Change α Unit} {f : α → Except Error α} {a : α}

theorem result_ofFun : (ofFun f).result a = f a := by
  simp only [result, EStateM.run, ofFun]
  cases f a <;> rfl

theorem result_bind : (c >>= fun _ => k).result a = c.result a >>= k.result := by
  simp only [result, EStateM.run, bind, EStateM.bind]
  cases c a <;> rfl

theorem result_ofExcept_bind {r : Except Error β} {k : β → Change α Unit} :
    (ofExcept r >>= k).result a = r >>= fun b => (k b).result a := by
  cases r <;> rfl

theorem result_forM {l : List β} {k : β → Change α Unit} :
    (l.forM k).result a = l.foldlM (fun a b => (k b).result a) a := by
  induction l generalizing a
  case nil         => rfl
  case cons b l hi =>
    change (k b >>= fun _ => l.forM k).result a = _
    rw [result_bind, List.foldlM_cons]
    exact bind_congr fun _ => hi

end Change

namespace Grammar

variable {g : Grammar} {n : NFA} {p : Production} {ps : List Production} {symbols : List String}
  {shape : Shape}

-- The symbols that are left are none of those that the alphabet has got already.
theorem foldlM_addSymbol (hn : (n.alphabet ++ symbols).Nodup)
    (he : epsilon ∉ n.alphabet ++ symbols) :
    symbols.foldlM (fun n a => (NFA.InPlace.addSymbol a).result n) n =
      .ok { n with alphabet := n.alphabet ++ symbols } := by
  induction symbols generalizing n
  case nil =>
    rw [List.append_nil]
    rfl
  case cons a symbols hi =>
    have hl : n.alphabet ++ a :: symbols = n.alphabet ++ [a] ++ symbols := by simp
    rw [hl] at hn he ⊢
    have hd : (n.alphabet ++ [a]).eraseDups = n.alphabet ++ [a] :=
      Automaton.eraseDups_of_nodup hn.of_append_left
    have ha : epsilon ∉ n.alphabet ++ [a] := fun h => he (List.mem_append_left _ h)
    rw [List.foldlM_cons, NFA.InPlace.addSymbol_eq, Change.result_ofFun, NFA.addSymbol, hd,
      if_neg ha]
    exact hi (n := { n with alphabet := n.alphabet ++ [a] }) hn he

theorem symbol_of_classify (h : g.classify p = .ok shape) :
    (arrow g.finalState p.left shape).symbol = epsilon ∨
      (arrow g.finalState p.left shape).symbol ∈ g.terminals := by
  cases shape
  case empty    => exact .inl rfl
  case terminal =>
    have ⟨_, _, _, ha⟩ := classify_terminal_iff.mp h
    exact .inr ha
  case step     =>
    have ⟨_, _, _, _, _, ha, _⟩ := classify_step_iff.mp h
    exact .inr ha

theorem result_addRule (ha : n.alphabet = g.terminals) : (g.addRule p).result n =
    g.classify p >>= fun shape =>
      let r := arrow g.finalState p.left shape
      .ok (n.link r.source r.symbol r.target) := by
  simp only [addRule, Change.result_ofExcept_bind, NFA.InPlace.addTransition_eq,
    Change.result_ofFun]
  cases h : g.classify p
  case error => rfl
  case ok    =>
    have hs := symbol_of_classify h
    rw [← ha] at hs
    exact if_neg fun hn => hs.elim hn.left hn.right

-- Without an error, the productions are classified first and then added in order.
theorem foldlM_addRule (ha : n.alphabet = g.terminals) :
    ps.foldlM (fun n p => (g.addRule p).result n) n =
      (ps.mapM fun p => do return (p.left, ← g.classify p)) >>= fun rules =>
        .ok (rules.foldl (fun n (left, shape) =>
          let r := arrow g.finalState left shape
          n.link r.source r.symbol r.target) n) := by
  induction ps generalizing n
  case nil => rfl
  case cons p ps hi =>
    rw [List.foldlM_cons, result_addRule ha, List.mapM_cons]
    cases g.classify p
    case error    => rfl
    case ok shape =>
      change ps.foldlM _ _ = (ps.mapM _ >>= fun rules => pure ((p.left, shape) :: rules)) >>= _
      rw [hi (n := n.link ..) ha]
      cases ps.mapM fun p => do return (p.left, ← g.classify p) <;> rfl

-- The NFA that grows in place is the NFA of the grammar.
theorem assemble_result : g.assemble.result NFA.empty = g.toNFA := by
  rw [assemble, toNFA]
  cases g.start
  case none   => rfl
  case some s =>
    have hs : g.terminals.foldlM (fun n a => (NFA.InPlace.addSymbol a).result n) NFA.empty = _ :=
      foldlM_addSymbol g.terminals_nodup g.epsilon_not_mem_terminals
    have hr : (g.productions.forM g.addRule).result (g.frame s) = _ :=
      Change.result_forM.trans (foldlM_addRule rfl)
    rw [Change.result_bind, Change.result_forM, hs]
    exact hr

theorem checkedDFA_eq : g.checkedDFA = g.toDFA := by
  rw [checkedDFA, toDFA, assemble_result]
  refine bind_congr_of_ok fun n hn => ?_
  obtain ⟨hv, _⟩ := valid_of_toNFA hn
  cases hd : n.toDFA
  case error => rfl
  case ok d  => exact (hv.of_toDFA hd).make_eq

end Grammar

variable {dfas : List (DFA String)} {operation : Option String} {d e : DFA String} {c : TestCase}
  {names : RenameMap}

theorem checkedCombine_eq (hv : ∀ d ∈ dfas, d.Valid) :
    checkedCombine dfas operation = combine dfas operation := by
  unfold checkedCombine
  split
  case h_1 d ds ho =>
    have hd := hv d (.head _)
    rw [hd.complete.make_eq, combine_complement ho]
    exact hd.complement.make_eq
  case h_2 op d₁ d₂ ds hc ho =>
    rw [(hv d₁ (.head _)).complete.make_eq, (hv d₂ (.tail _ (.head _))).complete.make_eq,
      combine_product ho hc]
    rfl
  case h_3 => rfl

theorem Combined.valid {asked : Option Operation} (hv : ∀ d ∈ dfas, d.Valid)
    (h : Combined asked dfas e) : e.Valid := by
  cases h
  case pass       => exact hv _ (.head _)
  case complement => exact (hv _ (.head _)).complement
  case product h  => exact DFA.valid_of_make (DFA.make_of_product h)

theorem valid_of_mapM_toDFA {gs : List Grammar} (h : gs.mapM Grammar.toDFA = .ok dfas) :
    ∀ d ∈ dfas, d.Valid := by
  intro d hd
  have ⟨g, _, hg⟩ := (mem_of_mapM_eq_ok h).mp hd
  exact (Grammar.built_of_toDFA hg).valid

theorem result_trim (hv : d.Valid) : DFA.InPlace.trim.result d = .ok d.trim := by
  rw [DFA.InPlace.trim_eq, Change.result_ofFun]
  exact hv.trim.remake_eq rfl

theorem TestCase.checkedRun_eq : c.checkedRun names = c.run names := by
  have hd : Grammar.checkedDFA = Grammar.toDFA := funext fun _ => Grammar.checkedDFA_eq
  rw [checkedRun, run, hd]
  refine bind_congr_of_ok fun dfas hm => ?_
  have hv := valid_of_mapM_toDFA hm
  rw [checkedCombine_eq hv, finish]
  refine bind_congr_of_ok fun e he => ?_
  rw [result_trim ((combined_of_combine he).valid hv)]
  rfl

end RightLinear
