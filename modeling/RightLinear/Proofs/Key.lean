import RightLinear.Key

namespace RightLinear.Key

variable {κ : Type} [Key κ] {l before after : List κ} {a b q : κ} {j k : Nat}

theorem asymm (h : a < b) : ¬b < a :=
  fun h' => irrefl a (trans _ _ _ h h')

-- The list may be increasing or decreasing.
omit [Key κ] in
-- What stands before an entry of an increasing list is what is less.
theorem mem_before_iff {r : κ → κ → Prop} (hr : ∀ a b, r a b → ¬r b a) (hs : l.Pairwise r)
    (hl : l = before ++ a :: after) : q ∈ before ↔ q ∈ l ∧ r q a := by
  subst hl
  have ⟨_, ha, hb⟩ := List.pairwise_append.mp hs
  constructor
  case mp  => exact fun hq => ⟨List.mem_append_left _ hq, hb q hq a (.head _)⟩
  case mpr =>
    intro ⟨hq, hqa⟩
    cases List.mem_append.mp hq
    case inl hq => exact hq
    case inr hq =>
      cases hq
      case head    => exact absurd hqa (hr _ _ hqa)
      case tail hq => exact absurd hqa (hr _ _ (List.rel_of_pairwise_cons ha hq))

theorem index_lt (hs : l.Pairwise (· < ·)) (hj : l[j]? = some a) (hk : l[k]? = some b)
    (h : a < b) : j < k := by
  have ⟨hjl, ha⟩ := List.getElem?_eq_some_iff.mp hj
  have ⟨hkl, hb⟩ := List.getElem?_eq_some_iff.mp hk
  refine Nat.lt_of_not_le fun hn => ?_
  cases Nat.eq_or_lt_of_le hn
  case inl he  =>
    subst he
    exact irrefl a (hb.symm.trans ha ▸ h)
  case inr hkj => exact asymm h (ha ▸ hb ▸ List.pairwise_iff_getElem.mp hs k j hkl hjl hkj)

end RightLinear.Key
