import RightLinear.InPlace
import RightLinear.Proofs.DFA.Relabel
import RightLinear.Proofs.DFA.Trim
import RightLinear.Proofs.Failure
import RightLinear.Proofs.NFA.Growth

namespace RightLinear

namespace Change

variable {α : Type} {P : α → Prop} {f : α → Except Error α}

-- Assigns what a function gives; if the function fails, nothing.
def ofFun (f : α → Except Error α) : Change α Unit := fun a =>
  match f a with
  | .ok b => .ok () b
  | .error e => .error e a

structure Safe (c : Change α Unit) (P : α → Prop) : Prop where
  preserves : ∀ a, P a → P (c.after a)
  undone    : ∀ a e, c.error? a = some e → c.after a = a

theorem safe_ofFun (h : ∀ a b, P a → f a = .ok b → P b) : (ofFun f).Safe P where
  preserves a ha := by
    simp only [after, EStateM.run, ofFun]
    cases hf : f a
    case error => exact ha
    case ok b  => exact h a b ha hf
  undone a e he := by
    simp only [error?, after, EStateM.run, ofFun] at he ⊢
    cases hf : f a
    case error => rfl
    case ok    => simp [hf] at he

end Change

namespace NFA

variable {n m : NFA} {s t a : String} {edit : Edit}

namespace InPlace

theorem addSymbol_eq : addSymbol a = .ofFun (·.addSymbol a) := by
  funext n
  change (if epsilon ∈ (n.alphabet ++ [a]).eraseDups then _ else _ : Change NFA Unit) n = _
  simp only [Change.ofFun, NFA.addSymbol]
  split <;> rfl

-- A row is opened for the new target only.
theorem openRow_putTarget : (openRow s >>= fun _ => putTarget s a t) = putTarget s a t := by
  funext n
  have hr : ((n.transitions.insert s ((n.transitions.find? s).getD ∅)).find? s).getD ∅ =
      (n.transitions.find? s).getD ∅ := by
    rw [Table.find?_insert, if_pos rfl, Option.getD_some]
  change EStateM.Result.ok () { n with transitions := _ } = .ok () { n with transitions := _ }
  rw [hr, Table.insert_insert]

theorem addTransition_eq : addTransition s a t = .ofFun (·.addTransition s a t) := by
  funext n
  change (if a ≠ epsilon ∧ a ∉ n.alphabet then _ else _ : Change NFA Unit) n = _
  simp only [Change.ofFun, NFA.addTransition]
  split
  case isTrue  => rfl
  case isFalse =>
    rw [openRow_putTarget]
    rfl

end InPlace

namespace Edit

-- The function that an edit carries out.
def apply : Edit → NFA → Except Error NFA
  | addState s, n => .ok (n.addState s)
  | setStart s, n => .ok (n.setStart s)
  | addAccepting s, n => .ok (n.addAccepting s)
  | addSymbol a, n => n.addSymbol a
  | addTransition s a t, n => n.addTransition s a t

-- Each change checks before it assigns, so it does all that a function does or nothing at all.
theorem change_eq : edit.change = .ofFun edit.apply := by
  cases edit
  case addState      => rfl
  case setStart      => rfl
  case addAccepting  => rfl
  case addSymbol     => exact InPlace.addSymbol_eq
  case addTransition => exact InPlace.addTransition_eq

theorem valid_of_apply (hv : n.Valid) (h : edit.apply n = .ok m) : m.Valid := by
  cases edit
  case addState      => exact Except.ok.inj h ▸ hv.addState
  case setStart      => exact Except.ok.inj h ▸ hv.setStart
  case addAccepting  => exact Except.ok.inj h ▸ hv.addAccepting
  case addSymbol     => exact hv.addSymbol h
  case addTransition => exact hv.addTransition h

theorem safe (edit : Edit) : edit.change.Safe NFA.Valid :=
  change_eq ▸ Change.safe_ofFun fun _ _ hv h => valid_of_apply hv h

end Edit
end NFA

namespace DFA

variable {d e parts : DFA String} {edit : Edit}

-- What stands for a DFA after its parts are replaced.
def remake (d parts : DFA String) : Except Error (DFA String) :=
  return { ← make parts with alphabet := d.alphabet }

theorem Valid.remake_eq (hv : parts.Valid) (ha : parts.alphabet = d.alphabet) :
    d.remake parts = .ok parts := by
  rw [remake, hv.make_eq, ← ha]
  rfl

namespace InPlace

theorem replaceWith_make :
    (ofExcept (make parts) >>= replaceWith) d = Change.ofFun (·.remake parts) d := by
  rw [Change.ofFun, remake]
  cases make parts <;> rfl

theorem trim_eq : trim = .ofFun fun d => d.remake d.trim :=
  funext fun _ => replaceWith_make

theorem relabelWith_eq {map : Table String String} :
    relabelWith map = .ofFun fun d => d.relabelWith map >>= d.remake := by
  funext d
  change (ofExcept (d.relabelWith map) >>= fun parts => ofExcept (make parts) >>= replaceWith) d = _
  rw [Change.ofFun]
  cases d.relabelWith map
  case error => rfl
  case ok    => exact replaceWith_make

theorem relabelReadable_eq :
    relabelReadable = .ofFun fun d => d.relabelReadable >>= d.remake := by
  funext d
  change relabelWith d.readableLabels d = _
  rw [relabelWith_eq]
  rfl

end InPlace

namespace Edit

def apply : Edit → DFA String → Except Error (DFA String)
  | trim, d => .ok d.trim
  | relabelReadable, d => d.relabelReadable
  | relabelWith map, d => d.relabelWith map

theorem change_eq : edit.change = .ofFun fun d => edit.apply d >>= d.remake := by
  cases edit
  case trim            => exact InPlace.trim_eq
  case relabelReadable => exact InPlace.relabelReadable_eq
  case relabelWith     => exact InPlace.relabelWith_eq

theorem valid_of_apply (hv : d.Valid) (h : edit.apply d = .ok e) :
    e.Valid ∧ e.alphabet = d.alphabet := by
  cases edit
  case trim            => exact Except.ok.inj h ▸ ⟨hv.trim, rfl⟩
  case relabelReadable => exact ⟨hv.of_relabel h, (relabel_eq_ok_iff.mp h).right ▸ rfl⟩
  case relabelWith     => exact ⟨hv.of_relabel h, (relabel_eq_ok_iff.mp h).right ▸ rfl⟩

-- The parts that replace those of a valid DFA fit together.
theorem apply_remake_eq (hv : d.Valid) : edit.apply d >>= d.remake = edit.apply d := by
  cases h : edit.apply d
  case error    => rfl
  case ok parts =>
    have ⟨hp, ha⟩ := valid_of_apply hv h
    exact hp.remake_eq ha

theorem safe (edit : Edit) : edit.change.Safe DFA.Valid := by
  rw [change_eq]
  apply Change.safe_ofFun
  intro d e hv h
  rw [apply_remake_eq hv] at h
  exact (valid_of_apply hv h).left

theorem run_change_of_ok (edit : Edit) (hv : d.Valid) (h : edit.apply d = .ok e) :
    edit.change.run d = .ok () e := by
  rw [change_eq]
  simp only [EStateM.run, Change.ofFun, (apply_remake_eq hv).trans h]

theorem run_change_of_error (edit : Edit) {x : Error} (h : edit.apply d = .error x) :
    edit.change.run d = .error x d := by
  rw [change_eq]
  simp only [EStateM.run, Change.ofFun, h]
  rfl

end Edit
end DFA
end RightLinear
