namespace RightLinear

variable {ε α β : Type} {f : α → Except ε β} {a : α} {b : β} {e : ε} {l : List α} {r : List β}

theorem exists_of_bind_eq_ok {x : Except ε α} (h : x >>= f = .ok b) :
    ∃ a, x = .ok a ∧ f a = .ok b := by
  cases x
  case error => cases h
  case ok a  => exact ⟨a, rfl, h⟩

theorem eq_ok_of_toOption {x : Except ε α} (h : x.toOption = some a) : x = .ok a := by
  cases x
  case error => cases h
  case ok    => exact congrArg _ (Option.some.inj h)

theorem mapM_cons_eq_ok_iff : (a :: l).mapM f = .ok r ↔
    ∃ b bs, f a = .ok b ∧ l.mapM f = .ok bs ∧ b :: bs = r := by
  rw [List.mapM_cons]
  cases f a
  case error => simp [bind, Except.bind]
  case ok b => cases l.mapM f <;> simp [bind, Except.bind, pure, Except.pure]

theorem mapM_eq_ok_cons (h : l.mapM f = .ok (b :: r)) :
    ∃ a as, l = a :: as ∧ f a = .ok b ∧ as.mapM f = .ok r := by
  cases l
  case nil => cases h
  case cons a as =>
    have ⟨b', bs, hb, hbs, he⟩ := mapM_cons_eq_ok_iff.mp h
    have ⟨rfl, rfl⟩ := List.cons.inj he
    exact ⟨a, as, rfl, hb, hbs⟩

theorem exists_mapM_eq_ok (h : ∀ a ∈ l, ∃ b, f a = .ok b) : ∃ r, l.mapM f = .ok r := by
  induction l
  case nil => exact ⟨[], rfl⟩
  case cons a l hi =>
    have ⟨⟨b, hb⟩, h⟩ := List.forall_mem_cons.mp h
    have ⟨bs, hbs⟩ := hi h
    exact ⟨b :: bs, mapM_cons_eq_ok_iff.mpr ⟨b, bs, hb, hbs, rfl⟩⟩

theorem forall_of_mapM_eq_ok (h : l.mapM f = .ok r) : ∀ a ∈ l, ∃ b ∈ r, f a = .ok b := by
  induction l generalizing r
  case nil => simp
  case cons a l hi =>
    obtain ⟨b, bs, hb, hbs, rfl⟩ := mapM_cons_eq_ok_iff.mp h
    refine List.forall_mem_cons.mpr ⟨⟨b, .head _, hb⟩, fun a ha => ?_⟩
    have ⟨b, hm, hb⟩ := hi hbs a ha
    exact ⟨b, .tail _ hm, hb⟩

theorem mem_of_mapM_eq_ok (h : l.mapM f = .ok r) : b ∈ r ↔ ∃ a ∈ l, f a = .ok b := by
  constructor
  case mp =>
    intro hb
    induction l generalizing r
    case nil =>
      cases h
      simp at hb
    case cons a l hi =>
      obtain ⟨b', bs, hb', hbs, rfl⟩ := mapM_cons_eq_ok_iff.mp h
      rcases List.mem_cons.mp hb with rfl | hb
      · exact ⟨a, .head _, hb'⟩
      · have ⟨a, ha, h⟩ := hi hbs hb
        exact ⟨a, .tail _ ha, h⟩
  case mpr =>
    rintro ⟨a, ha, hf⟩
    have ⟨b', hm, hb⟩ := forall_of_mapM_eq_ok h a ha
    cases hf.symm.trans hb
    exact hm

theorem length_of_mapM_eq_ok (h : l.mapM f = .ok r) : r.length = l.length := by
  induction l generalizing r
  case nil => cases h; rfl
  case cons a l hi =>
    have ⟨b, bs, _, hbs, he⟩ := mapM_cons_eq_ok_iff.mp h
    rw [← he, List.length_cons, List.length_cons, hi hbs]

theorem bind_eq_error_iff {x : Except ε α} :
    x >>= f = .error e ↔ x = .error e ∨ ∃ a, x = .ok a ∧ f a = .error e := by
  cases x <;> simp [bind, Except.bind]

-- What follows a failure does not matter.
theorem bind_congr_of_ok {x : Except ε α} {g : α → Except ε β} (h : ∀ a, x = .ok a → f a = g a) :
    x >>= f = x >>= g := by
  cases x
  case error => rfl
  case ok a  => exact h a rfl

theorem mapM_cons_eq_error_iff : (a :: l).mapM f = .error e ↔
    f a = .error e ∨ (∃ b, f a = .ok b) ∧ l.mapM f = .error e := by
  rw [List.mapM_cons]
  cases f a
  case error => simp [bind, Except.bind]
  case ok b  => cases l.mapM f <;> simp [bind, Except.bind, pure, Except.pure]

-- The first computation that fails decides.
theorem mapM_eq_error_iff : l.mapM f = .error e ↔ ∃ before a after,
    l = before ++ a :: after ∧ (∀ b ∈ before, ∃ c, f b = .ok c) ∧ f a = .error e := by
  induction l
  case nil => simp [pure, Except.pure]
  case cons a l hi =>
    rw [mapM_cons_eq_error_iff, hi]
    constructor
    case mp =>
      intro h
      cases h
      case inl h => exact ⟨[], a, l, rfl, nofun, h⟩
      case inr h =>
        have ⟨ha, before, b, after, hl, hb, h⟩ := h
        exact ⟨a :: before, b, after, by rw [hl]; rfl, List.forall_mem_cons.mpr ⟨ha, hb⟩, h⟩
    case mpr =>
      intro ⟨before, b, after, hl, hb, h⟩
      cases before
      case nil =>
        cases hl
        exact .inl h
      case cons =>
        cases hl
        have ⟨ha, hb⟩ := List.forall_mem_cons.mp hb
        exact .inr ⟨ha, _, _, _, rfl, hb, h⟩

end RightLinear
