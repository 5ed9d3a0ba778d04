import RightLinear.Batch

namespace RightLinear

variable {dfas : List (DFA String)} {operation : Option String} {op : Operation} {name : String}
  {e : Error}

theorem title_of_ofName? (h : Operation.ofName? name = some op) : op.title = name := by
  unfold Operation.ofName? at h
  split at h
  case h_4 => cases h
  all_goals
    cases h
    rfl

theorem isEmpty_of_ofName? (h : Operation.ofName? name = some op) : name.isEmpty = false := by
  rw [← title_of_ofName? h]
  cases op <;> rfl

-- How many DFAs are combined, by the operation if there is one.
def Operation.arity : Option Operation → Nat
  | some .union | some .intersection => 2
  | _ => 1

theorem combine_unknown (hn : operationName operation ≠ "")
    (ho : Operation.ofName? (operationName operation) = none) :
    combine dfas operation = .error (.unknownOperation (operation.getD "")) := by
  simp [combine, hn, ho]

theorem combine_pass (hn : operationName operation = "") : combine dfas operation =
    match dfas with
    | d :: _ => .ok d
    | [] => .error (.grammarCount "pass-through" 1 0) := by
  simp only [combine, hn]
  cases dfas <;> rfl

theorem combine_complement (ho : Operation.ofName? (operationName operation) = some .complement) :
    combine dfas operation =
      match dfas with
      | d :: _ => .ok d.complement
      | [] => .error (.grammarCount "complement" 1 0) := by
  simp only [combine, isEmpty_of_ofName? ho, ho]
  cases dfas
  case cons => rfl
  case nil  =>
    rw [← title_of_ofName? ho]
    rfl

theorem combine_product (ho : Operation.ofName? (operationName operation) = some op)
    (hc : op ≠ .complement) :
    combine dfas operation =
      match dfas with
      | d₁ :: d₂ :: _ => DFA.product op d₁.complete d₂.complete
      | ds => .error (.grammarCount op.title 2 ds.length) := by
  simp only [combine, isEmpty_of_ofName? ho, ho]
  rw [← title_of_ofName? ho]
  cases op
  case complement => contradiction
  all_goals
    rcases dfas with _ | ⟨_, _ | ⟨_, _⟩⟩ <;> rfl

theorem combine_tooFew
    (hk : operationName operation = "" ∨ Operation.ofName? (operationName operation) ≠ none)
    (hl : dfas.length < Operation.arity (Operation.ofName? (operationName operation))) :
    combine dfas operation =
      .error (.grammarCount
        ((Operation.ofName? (operationName operation)).elim "pass-through" Operation.title)
        (Operation.arity (Operation.ofName? (operationName operation))) dfas.length) := by
  cases ho : Operation.ofName? (operationName operation)
  case none =>
    rw [ho] at hl
    rw [combine_pass (hk.resolve_right (· ho)), List.length_eq_zero_iff.mp (Nat.lt_one_iff.mp hl)]
    rfl
  case some op =>
    rw [ho] at hl
    cases op
    case complement =>
      rw [combine_complement ho, List.length_eq_zero_iff.mp (Nat.lt_one_iff.mp hl)]
      rfl
    all_goals
      rw [combine_product ho nofun]
      match dfas, hl with
      | [], _  => rfl
      | [_], _ => rfl

theorem product_of_combine_eq_error
    (hk : operationName operation = "" ∨ Operation.ofName? (operationName operation) ≠ none)
    (hl : Operation.arity (Operation.ofName? (operationName operation)) ≤ dfas.length)
    (h : combine dfas operation = .error e) :
    ∃ op d₁ d₂ ds, Operation.ofName? (operationName operation) = some op ∧ op ≠ .complement ∧
      dfas = d₁ :: d₂ :: ds ∧ DFA.product op d₁.complete d₂.complete = .error e := by
  cases ho : Operation.ofName? (operationName operation)
  case none =>
    rw [ho] at hl
    rw [combine_pass (hk.resolve_right (· ho))] at h
    match dfas, hl with
    | _ :: _, _ => cases h
  case some op =>
    rw [ho] at hl
    cases op
    case complement =>
      rw [combine_complement ho] at h
      match dfas, hl with
      | _ :: _, _ => cases h
    all_goals
      rw [combine_product ho nofun] at h
      match dfas, hl with
      | _ :: _ :: _, _ => exact ⟨_, _, _, _, rfl, nofun, rfl, h⟩

end RightLinear
