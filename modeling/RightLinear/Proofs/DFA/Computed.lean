import RightLinear.Proofs.DFA.Product
import RightLinear.Proofs.DFA.Relabel
import RightLinear.Proofs.DFA.Trim
import RightLinear.Proofs.Failure
import RightLinear.Proofs.NFA.Determinize

namespace RightLinear.DFA

variable {op : Operation} {d d₁ d₂ e : DFA String}

theorem noStrayRow_complete : d.complete.NoStrayRow :=
  fun _ => mem_keys_complete.mp

theorem noStrayRow_complement : d.complement.NoStrayRow :=
  d.noStrayRow_complete

theorem noStrayRow_pairs : (pairs op d₁ d₂).NoStrayRow := by
  intro s hs
  have ⟨e, he, hs⟩ := Table.mem_keys_ofList.mp hs
  have ⟨p, hp, he⟩ := List.mem_map.mp he
  subst he hs
  exact mem_states_pairs_iff.mpr ⟨p, hp, rfl⟩

theorem noStrayRow_of_product (h : product op d₁ d₂ = .ok e) : e.NoStrayRow := by
  have ⟨_, he⟩ := make_eq_ok_iff.mp (make_of_product h)
  subst he
  exact @noStrayRow_pairs op d₁ d₂

-- A DFA that comes from an NFA or from a construction on valid DFAs, perhaps under new labels.
-- Computed DFAs are valid themselves, so the constructions apply to them again.
inductive Computed : DFA String → Prop
  | determinized {n : NFA} {d : DFA String} (hn : n.Valid) (h : n.toDFA = .ok d) : Computed d
  | completed {d : DFA String} (hd : d.Valid) : Computed d.complete
  | complemented {d : DFA String} (hd : d.Valid) : Computed d.complement
  | united {d₁ d₂ d : DFA String} (h₁ : d₁.Valid) (h₂ : d₂.Valid) (h : d₁.union d₂ = .ok d) :
    Computed d
  | intersected {d₁ d₂ d : DFA String} (h₁ : d₁.Valid) (h₂ : d₂.Valid)
    (h : d₁.intersection d₂ = .ok d) : Computed d
  | trimmed {d : DFA String} (hd : d.Valid) : Computed d.trim
  | relabelledReadable {d e : DFA String} (hd : Computed d) (h : d.relabelReadable = .ok e) :
    Computed e
  | relabelledWith {d e : DFA String} {map : Table String String} (hd : Computed d)
    (h : d.relabelWith map = .ok e) : Computed e

theorem NoStrayRow.of_relabel {f : String → String} (hr : d.NoStrayRow) (h : d.relabel f = .ok e) :
    e.NoStrayRow :=
  (relabel_eq_ok_iff.mp h).right ▸ hr.relabelled f

namespace Computed

theorem valid (h : Computed d) : d.Valid := by
  induction h
  case determinized hn h           => exact hn.of_toDFA h
  case completed hd                => exact hd.complete
  case complemented hd             => exact hd.complement
  case united h                    => exact valid_of_make (make_of_product h)
  case intersected h               => exact valid_of_make (make_of_product h)
  case trimmed hd                  => exact hd.trim
  case relabelledReadable h hi     => exact hi.of_relabel h
  case relabelledWith h hi         => exact hi.of_relabel h

-- A valid DFA may have a row whose source is no state, and then its states cannot be relabelled.
-- What the constructions give has no such row, whatever it was made from.
theorem noStrayRow (h : Computed d) : d.NoStrayRow := by
  induction h
  case determinized h              => exact NFA.noStrayRow_of_toDFA h
  case completed                   => exact noStrayRow_complete
  case complemented                => exact noStrayRow_complement
  case united h                    => exact noStrayRow_of_product h
  case intersected h               => exact noStrayRow_of_product h
  case trimmed                     => exact noStrayRow_trim
  case relabelledReadable h hi     => exact hi.of_relabel h
  case relabelledWith h hi         => exact hi.of_relabel h

theorem exists_relabel (h : Computed d) (f : String → String) :
    ∃ e, d.relabel f = .ok e ∧ make e = .ok e :=
  ⟨d.relabelled f, relabel_eq_ok_iff.mpr ⟨h.noStrayRow, rfl⟩, (h.valid.relabelled f).make_eq⟩

theorem relabel_succeeds (h : Computed d) : d.Valid ∧ (∀ s ∈ d.transitions.keys, s ∈ d.states) ∧
    (∃ e, d.relabelReadable = .ok e ∧ make e = .ok e) ∧
      ∀ map, ∃ e, d.relabelWith map = .ok e ∧ make e = .ok e :=
  ⟨h.valid, h.noStrayRow, h.exists_relabel _, fun _ => h.exists_relabel _⟩

end Computed

-- A row without entries for a label that is no state.
def straying : DFA String where
  states      := .ofList ["p", "q"]
  alphabet    := ["a"]
  start       := some "p"
  accepting   := .singleton "q"
  transitions := .ofList [("p", .ofList [("a", "q")]), ("gone", ∅)]

-- Completed, put under labels of which two are one, and united with its own complement.
def strayingUnited : Except Error (DFA String) := do
  let e ← straying.complete.relabelWith (.ofList [("p", "r"), ("q", "r")])
  e.union e.complement

theorem relabel_succeeds_straying : straying.Valid ∧
    straying.relabelReadable = .error (.strayRow "gone") ∧
    ∃ u v, strayingUnited = .ok u ∧ u.relabelReadable = .ok v := by
  have hv : straying.Valid := by decide +kernel
  have hs : straying.relabelReadable = .error (.strayRow "gone") := by rfl
  have hok : strayingUnited.isOk = true := by decide +kernel
  cases h : strayingUnited
  case error => simp [h, Except.isOk, Except.toBool] at hok
  case ok u =>
    obtain ⟨e, he, hu⟩ := exists_of_bind_eq_ok h
    have hc : Computed e := .relabelledWith (.completed hv) he
    have hcu : Computed u := .united hc.valid (Computed.complemented hc.valid).valid hu
    obtain ⟨_, _, ⟨v, hr, _⟩, _⟩ := hcu.relabel_succeeds
    exact ⟨hv, hs, u, v, rfl, hr⟩

end RightLinear.DFA
