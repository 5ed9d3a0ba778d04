import Mathlib.Data.List.Infix
import Mathlib.Tactic.MkIffOfInductiveProp
import RightLinear.CaseFile.Reader
import RightLinear.Proofs.Text.Pieces

namespace RightLinear.CaseFile

variable {c : Char} {cs a b w : List Char} {ls : List (List Char)} {left : String}
  {rights : List String}

@[mk_iff]
structure ArrowFree (cs : List Char) : Prop where
  sign : '→' ∉ cs
  pair : ¬['-', '>'] <:+: cs

theorem splitArrows_cons (hs : c ≠ '→') (hp : c ≠ '-' ∨ cs.head? ≠ some '>') :
    splitArrows (c :: cs) = (splitArrows cs).modifyHead (c :: ·) := by
  have hn : ∀ cs', c = '-' → cs = '>' :: cs' → False :=
    fun _ hc he => hp.elim (· hc) (· (he ▸ rfl))
  have hne : splitArrows cs ≠ [] := by
    cases cs using splitArrows.induct <;> simp_all [splitArrows]
  rw [splitArrows.eq_3 c cs hn, if_neg hs]
  cases h : splitArrows cs
  case nil  => exact absurd h hne
  case cons => rfl

theorem splitArrows_cons_of_mark (hs : c ≠ '→') (hp : c ≠ '-') :
    splitArrows (c :: cs) = (splitArrows cs).modifyHead (c :: ·) :=
  splitArrows_cons hs (.inl hp)

theorem ArrowFree.of_cons (h : ArrowFree (c :: cs)) : ArrowFree cs where
  sign hs := h.sign (.tail _ hs)
  pair hp := h.pair (List.infix_cons hp)

-- What has no arrow belongs to the piece that follows.
theorem ArrowFree.splitArrows_append (h : ArrowFree a) (hb : b.head? ≠ some '>') :
    splitArrows (a ++ b) = (splitArrows b).modifyHead (a ++ ·) := by
  induction a
  case nil => exact (congrFun List.modifyHead_id (splitArrows b)).symm
  case cons c cs hi =>
    have hs : c ≠ '→' := fun he => h.sign (he ▸ .head _)
    have hp : c ≠ '-' ∨ (cs ++ b).head? ≠ some '>' := by
      by_contra hn
      have ⟨hc, he⟩ := not_or.mp hn
      cases cs
      case nil => exact he hb
      case cons d cs =>
        have hd : d = '>' := Option.some.inj (not_not.mp he)
        rw [not_not.mp hc, hd] at h
        exact h.pair (List.prefix_append ['-', '>'] cs).isInfix
    rw [List.cons_append, splitArrows_cons hs hp, hi h.of_cons, List.modifyHead_modifyHead]
    rfl

theorem ArrowFree.splitArrows_eq (h : ArrowFree a) : splitArrows a = [a] := by
  simpa [splitArrows] using h.splitArrows_append (b := []) nofun

theorem splitArrows_intercalate (h : ∀ l ∈ ls, ArrowFree l) :
    splitArrows ([' ', '|', ' '].intercalate ls) = [[' ', '|', ' '].intercalate ls] := by
  induction ls
  case nil => rfl
  case cons l ls hi =>
    have ⟨hl, h⟩ := List.forall_mem_cons.mp h
    cases ls
    case nil  => rw [List.intercalate_singleton, hl.splitArrows_eq]
    case cons =>
      rw [List.intercalate_cons_cons, List.append_assoc, hl.splitArrows_append (by simp),
        List.cons_append, List.cons_append, List.cons_append, List.nil_append,
        splitArrows_cons_of_mark (by decide) (by decide),
        splitArrows_cons_of_mark (by decide) (by decide),
        splitArrows_cons_of_mark (by decide) (by decide), hi h]
      rfl

-- An arrow with a blank on either side stands between two pieces.
theorem splitArrows_arrow (ha : ArrowFree a) (hb : splitArrows b = [b]) :
    splitArrows (a ++ [' ', '-', '>', ' '] ++ b) = [a ++ [' '], ' ' :: b] := by
  have hs : splitArrows ('-' :: '>' :: ' ' :: b) = [] :: [' ' :: b] := by
    rw [splitArrows, splitArrows_cons_of_mark (by decide) (by decide), hb]
    rfl
  rw [List.append_assoc, ha.splitArrows_append (by simp), List.cons_append, List.cons_append,
    List.cons_append, List.cons_append, List.nil_append,
    splitArrows_cons_of_mark (by decide) (by decide), hs]
  rfl

theorem subset_of_mem_splitArrows (h : w ∈ splitArrows cs) : w ⊆ cs := by
  induction cs using splitArrows.induct generalizing w
  case case1 => simp_all [splitArrows]
  case case2 cs hi =>
    cases List.mem_cons.mp h
    case inl h => exact h ▸ List.nil_subset _
    case inr h => exact List.subset_cons_of_subset _ (List.subset_cons_of_subset _ (hi h))
  case case3 cs hn hi =>
    rw [splitArrows.eq_3 _ cs hn, if_pos rfl] at h
    cases List.mem_cons.mp h
    case inl h => exact h ▸ List.nil_subset _
    case inr h => exact List.subset_cons_of_subset _ (hi h)
  case case4 c cs hn hs he _ =>
    rw [splitArrows.eq_3 c cs hn, if_neg hs, he] at h
    simp [List.mem_singleton.mp h]
  case case5 c cs hn hs v ls he hi =>
    rw [splitArrows.eq_3 c cs hn, if_neg hs, he] at h
    have hm : w ∈ (v :: ls).modifyHead (c :: ·) := h
    exact Text.subset_of_mem_modifyHead hm fun _ hv => hi (he ▸ hv)

-- The sides of a rule are parts of the line.
theorem subset_of_rule? (h : rule? cs = some (left, rights)) :
    left.toList ⊆ cs ∧ ∀ r ∈ rights, r.toList ⊆ cs := by
  rw [rule?] at h
  split at h
  case h_2 => cases h
  case h_1 l rs hs =>
    have ⟨hl, hr⟩ : l ⊆ cs ∧ rs ⊆ cs := by
      have hp : ∀ p ∈ (splitArrows cs).map Text.trim, p ⊆ cs :=
        List.forall_mem_map.mpr fun p hp =>
          List.Subset.trans Text.trim_subset (subset_of_mem_splitArrows hp)
      simpa [hs] using hp
    have ⟨_, h⟩ := Option.ite_none_left_eq_some.mp h
    have ⟨he, hes⟩ := Prod.mk.inj (Option.some.inj h)
    rw [← he, ← hes, List.forall_mem_map, String.toList_ofList]
    refine ⟨hl, fun p hp => ?_⟩
    rw [String.toList_ofList]
    have hs : p ⊆ rs := Text.subset_of_mem_split hp
    exact List.Subset.trans Text.trim_subset (List.Subset.trans hs hr)

-- A rule on a line, or several with one left side.
def ruleText (left : String) (rights : List String) : String :=
  left ++ " -> " ++ " | ".intercalate rights

-- What stands on a side of an arrow: it is stripped and has no arrow.
@[mk_iff]
structure Side (s : String) : Prop where
  nonempty  : s ≠ ""
  stripped  : Text.trim s.toList = s.toList
  arrowFree : ArrowFree s.toList

instance {cs : List Char} : Decidable (ArrowFree cs) :=
  decidable_of_iff' _ (arrowFree_iff cs)

instance {s : String} : Decidable (Side s) :=
  decidable_of_iff' _ (side_iff s)

theorem Side.trimmed (h : Side left) : Text.Trimmed left.toList ∧ left.toList ≠ [] :=
  ⟨Text.trimmed_iff.mpr h.stripped, by simpa using h.nonempty⟩

theorem toList_ruleText : (ruleText left rights).toList = left.toList ++ [' ', '-', '>', ' '] ++
    [' ', '|', ' '].intercalate (rights.map String.toList) := by
  rw [ruleText, String.toList_append, String.toList_append, String.toList_intercalate]
  rfl

-- Sides without arrows and bars are found again.
theorem rule?_ruleText (hl : Side left) (hr : ∀ r ∈ rights, Side r ∧ '|' ∉ r.toList)
    (hn : rights ≠ []) : rule? (ruleText left rights).toList = some (left, rights) := by
  let joined : List Char := [' ', '|', ' '].intercalate (rights.map String.toList)
  have hn : rights.map String.toList ≠ [] := by simpa using hn
  have ht : Text.trim joined = joined := Text.trimmed_iff.mp
    (.intercalate (List.forall_mem_map.mpr fun r hm => (hr r hm).left.trimmed) hn)
  have hs : (splitArrows (ruleText left rights).toList).map Text.trim = [left.toList, joined] := by
    have hj : splitArrows joined = [joined] :=
      splitArrows_intercalate (List.forall_mem_map.mpr fun r hm => (hr r hm).left.arrowFree)
    rw [toList_ruleText, splitArrows_arrow hl.arrowFree hj, List.map_cons, List.map_singleton,
      Text.trim_append_blank rfl, Text.trim_cons_blank rfl, hl.stripped, ht]
  have hb : (Text.split (· = '|') joined).map Text.trim = rights.map String.toList := by
    refine Text.trim_split_intercalate (by decide) (by decide)
      (List.forall_mem_map.mpr fun r hm => ⟨(hr r hm).left.stripped, fun c hc => ?_⟩) hn
    exact decide_eq_false fun he => (hr r hm).right (he ▸ hc)
  have ho : (Text.split (· = '|') joined).map (fun cs => .ofList (Text.trim cs)) = rights := by
    simpa [Function.comp_def] using congrArg (List.map String.ofList) hb
  have he : left.toList.isEmpty = false := by simpa using hl.nonempty
  simp [rule?, hs, he, ho]

end RightLinear.CaseFile
