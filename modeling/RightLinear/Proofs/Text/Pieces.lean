import Mathlib.Data.List.DropRight
import RightLinear.Proofs.Text.Lines

namespace RightLinear.Text

section

variable {α β : Type} {m : List α} {ls ms : List (List α)}

theorem exists_head?_intercalate (h : ∀ l ∈ ls, l ≠ []) (hn : ls ≠ []) :
    ∃ l ∈ ls, (m.intercalate ls).head? = l.head? := by
  cases ls
  case nil => contradiction
  case cons l ls =>
    refine ⟨l, .head _, ?_⟩
    cases ls
    case nil  => rw [List.intercalate_singleton]
    case cons =>
      rw [List.intercalate_cons_cons, List.append_assoc,
        List.head?_append_of_ne_nil _ (h l (.head _))]

theorem intercalate_ne_nil (h : ∀ l ∈ ls, l ≠ []) (hn : ls ≠ []) : m.intercalate ls ≠ [] := by
  have ⟨l, hl, he⟩ := exists_head?_intercalate (m := m) h hn
  intro hj
  rw [hj] at he
  exact h l hl (List.head?_eq_none_iff.mp he.symm)

theorem exists_getLast?_intercalate (h : ∀ l ∈ ls, l ≠ []) (hn : ls ≠ []) :
    ∃ l ∈ ls, (m.intercalate ls).getLast? = l.getLast? := by
  induction ls
  case nil => contradiction
  case cons l ls hi =>
    cases ls
    case nil => exact ⟨l, .head _, by rw [List.intercalate_singleton]⟩
    case cons l' ls =>
      have ⟨k, hk, he⟩ := hi (List.forall_mem_cons.mp h).right nofun
      have hj : m.intercalate (l' :: ls) ≠ [] :=
        intercalate_ne_nil (List.forall_mem_cons.mp h).right nofun
      refine ⟨k, .tail _ hk, ?_⟩
      rw [List.intercalate_cons_cons, List.getLast?_append_of_ne_nil _ hj, he]

theorem forall_mem_intercalate {P : α → Prop} (hm : ∀ c ∈ m, P c) (h : ∀ l ∈ ls, ∀ c ∈ l, P c) :
    ∀ c ∈ m.intercalate ls, P c := by
  induction ls
  case nil => simp
  case cons l ls hi =>
    have ⟨hl, h⟩ := List.forall_mem_cons.mp h
    cases ls
    case nil  => rwa [List.intercalate_singleton]
    case cons =>
      rw [List.intercalate_cons_cons]
      exact List.forall_mem_append.mpr ⟨List.forall_mem_append.mpr ⟨hl, hm⟩, hi h⟩

theorem ended_eq_intercalate {stop : α} (hn : ls ≠ []) :
    ended stop ls = [stop].intercalate ls ++ [stop] := by
  induction ls
  case nil => contradiction
  case cons l ls hi =>
    cases ls
    case nil  => simp [ended, List.intercalate_singleton]
    case cons => simp [ended_cons, hi, List.intercalate_cons_cons]

theorem map_intercalate {f : α → β} :
    (m.intercalate ls).map f = (m.map f).intercalate (ls.map (·.map f)) := by
  induction ls
  case nil => rfl
  case cons l ls hi =>
    cases ls
    case nil  => simp [List.intercalate_singleton]
    case cons =>
      rw [List.intercalate_cons_cons, List.map_append, List.map_append, hi, List.map_cons,
        List.map_cons, List.map_cons, List.intercalate_cons_cons]

-- Lists that do not have the mark between them, and are not empty, are told apart by it.
theorem eq_of_intercalate_eq [BEq α] [LawfulBEq α] {stop : α} (hl : ∀ l ∈ ls, l ≠ [] ∧ stop ∉ l)
    (hm : ∀ l ∈ ms, l ≠ [] ∧ stop ∉ l) (h : [stop].intercalate ls = [stop].intercalate ms) :
    ls = ms := by
  have join_ne {ks : List (List α)} (hk : ∀ l ∈ ks, l ≠ [] ∧ stop ∉ l) (hn : ks ≠ []) :
      [stop].intercalate ks ≠ [] := intercalate_ne_nil (fun l hm => (hk l hm).left) hn
  by_cases hn : ls = []
  case pos =>
    rw [hn] at h ⊢
    exact (not_not.mp fun hms => join_ne hm (Ne.symm hms) h.symm)
  case neg =>
    have hms : ms ≠ [] := by
      intro hms
      rw [hms] at h
      exact join_ne hl hn h
    rw [← List.splitOn_intercalate stop (fun l h => (hl l h).right) hn, h,
      List.splitOn_intercalate stop (fun l h => (hm l h).right) hms]

end

variable {p : Char → Bool} {c : Char} {cs a b m w : List Char} {ls : List (List Char)}

-- There is no blank at either end.
structure Trimmed (cs : List Char) : Prop where
  head : ∀ c, cs.head? = some c → isBlank c = false
  last : ∀ c, cs.getLast? = some c → isBlank c = false

theorem trimRight_eq : trimRight cs = cs.rdropWhile isBlank :=
  rfl

theorem trimmed_iff : Trimmed cs ↔ trim cs = cs := by
  have hd : cs.dropWhile isBlank = cs ↔ ∀ c, cs.head? = some c → isBlank c = false := by
    cases cs <;> simp [List.dropWhile_eq_self_iff]
  have hr : cs.rdropWhile isBlank = cs ↔ ∀ c, cs.getLast? = some c → isBlank c = false := by
    rw [List.rdropWhile_eq_self_iff]
    cases cs using List.reverseRecOn <;> simp
  constructor
  case mp =>
    intro ⟨hh, hl⟩
    rw [trim, hd.mpr hh, trimRight_eq, hr.mpr hl]
  case mpr =>
    intro h
    have hl := (List.rdropWhile_prefix isBlank (cs.dropWhile isBlank)).length_le
    rw [← trimRight_eq, ← trim, h] at hl
    have hs := (List.dropWhile_suffix isBlank).eq_of_length_le hl
    rw [trim, hs, trimRight_eq] at h
    exact ⟨hd.mp hs, hr.mp h⟩

theorem Trimmed.append (ha : Trimmed a) (hb : Trimmed b) (hna : a ≠ []) (hnb : b ≠ []) :
    Trimmed (a ++ m ++ b) where
  head c hc := by
    cases a
    case nil  => contradiction
    case cons => exact ha.head c hc
  last c hc := by
    rw [List.getLast?_append_of_ne_nil _ hnb] at hc
    exact hb.last c hc

theorem Trimmed.of_not_blank (h : ∀ c ∈ cs, isBlank c = false) : Trimmed cs :=
  ⟨fun c hc => h c (List.mem_of_mem_head? hc), fun c hc => h c (List.mem_of_getLast? hc)⟩

theorem trim_cons_blank (h : isBlank c = true) : trim (c :: cs) = trim cs := by
  rw [trim, trim, List.dropWhile_cons_of_pos h]

theorem trim_append_blank (h : isBlank c = true) : trim (cs ++ [c]) = trim cs := by
  rw [trim, trim, List.dropWhile_append]
  split
  case isTrue he =>
    rw [List.isEmpty_iff.mp he, List.dropWhile_cons_of_pos h]
    rfl
  case isFalse => rw [trimRight_eq, trimRight_eq, List.rdropWhile_concat_pos _ _ _ h]

theorem trim_subset : trim cs ⊆ cs :=
  List.Subset.trans (List.rdropWhile_prefix isBlank _).subset (List.dropWhile_suffix isBlank).subset

theorem Trimmed.intercalate (h : ∀ l ∈ ls, Trimmed l ∧ l ≠ []) (hn : ls ≠ []) :
    Trimmed (m.intercalate ls) where
  head c hc := by
    have ⟨l, hl, he⟩ := exists_head?_intercalate (m := m) (fun l hl => (h l hl).right) hn
    exact (h l hl).left.head c (he ▸ hc)
  last c hc := by
    have ⟨l, hl, he⟩ := exists_getLast?_intercalate (m := m) (fun l hl => (h l hl).right) hn
    exact (h l hl).left.last c (he ▸ hc)

theorem split_eq_splitOnP : split p cs = cs.splitOnP p := by
  induction cs
  case nil => rfl
  case cons c cs hi =>
    rw [split, List.splitOnP_cons_eq_if_modifyHead, hi]
    cases h : cs.splitOnP p
    case nil  => exact absurd (hi.trans h) split_ne_nil
    case cons => rfl

-- What a character is put before belongs to what was cut.
theorem subset_of_mem_modifyHead (h : w ∈ ls.modifyHead (c :: ·)) (hl : ∀ v ∈ ls, v ⊆ cs) :
    w ⊆ c :: cs := by
  cases ls
  case nil => cases h
  case cons v ls =>
    have ⟨hv, hl⟩ := List.forall_mem_cons.mp hl
    cases List.mem_cons.mp h
    case inl h => exact h ▸ List.cons_subset_cons c hv
    case inr h => exact List.subset_cons_of_subset c (hl w h)

theorem subset_of_mem_split (h : w ∈ split p cs) : w ⊆ cs := by
  rw [split_eq_splitOnP] at h
  induction cs generalizing w
  case nil => simp_all
  case cons c cs hi =>
    rw [List.splitOnP_cons_eq_if_modifyHead] at h
    split at h
    case isFalse => exact subset_of_mem_modifyHead h fun _ hv => hi hv
    case isTrue  =>
      cases List.mem_cons.mp h
      case inl h => exact h ▸ List.nil_subset _
      case inr h => exact List.subset_cons_of_subset c (hi h)

theorem trim_split_cons_blank (h : isBlank c = true) (hp : p c = false) :
    (split p (c :: cs)).map trim = (split p cs).map trim := by
  rw [split_eq_splitOnP, List.splitOnP_cons_eq_if_modifyHead, if_neg (by simp [hp]),
    ← split_eq_splitOnP]
  cases split p cs
  case nil  => rfl
  case cons => exact congrArg (· :: _) (trim_cons_blank h)

theorem trim_split_of_not_mem (h : ∀ c ∈ cs, p c = false) : (split p cs).map trim = [trim cs] := by
  rw [split_eq_splitOnP, List.splitOnP_eq_singleton h]
  rfl

-- A mark with a blank on either side ends a piece.
theorem trim_split_append (hc : p c = true) (hs : p ' ' = false) (ha : ∀ c ∈ a, p c = false) :
    (split p (a ++ [' ', c, ' '] ++ b)).map trim = trim a :: (split p b).map trim := by
  have he : a ++ [' ', c, ' '] ++ b = (a ++ [' ']) ++ c :: ' ' :: b := by simp
  have ha' : ∀ d ∈ a ++ [' '], p d = false := by
    simpa [or_imp, forall_and] using ⟨ha, hs⟩
  rw [he, split_eq_splitOnP, List.splitOnP_append_cons _ _ hc, List.map_append, ← split_eq_splitOnP,
    ← split_eq_splitOnP, trim_split_of_not_mem ha', trim_split_cons_blank rfl hs,
    trim_append_blank rfl, List.singleton_append]

-- What is written with a mark between its pieces falls into these pieces again.
theorem trim_split_intercalate (hc : p c = true) (hs : p ' ' = false)
    (h : ∀ l ∈ ls, trim l = l ∧ ∀ d ∈ l, p d = false) (hn : ls ≠ []) :
    (split p ([' ', c, ' '].intercalate ls)).map trim = ls := by
  induction ls
  case nil => contradiction
  case cons l ls hi =>
    have ⟨⟨ht, hl⟩, h⟩ := List.forall_mem_cons.mp h
    cases ls
    case nil  => rw [List.intercalate_singleton, trim_split_of_not_mem hl, ht]
    case cons => rw [List.intercalate_cons_cons, trim_split_append hc hs hl, ht, hi h nofun]

theorem of_mem_words (h : w ∈ words cs) : w ≠ [] ∧ ∀ c ∈ w, isBlank c = false := by
  have ⟨hm, hn⟩ := List.mem_filter.mp h
  exact ⟨by simpa using hn, not_of_mem_split hm⟩

theorem words_append (ha : a ≠ []) (h : ∀ c ∈ a, isBlank c = false) :
    words (a ++ [' '] ++ b) = a :: words b := by
  rw [words, words, List.append_assoc, List.singleton_append, split_eq_splitOnP, split_eq_splitOnP,
    List.splitOnP_append_cons _ _ rfl, List.splitOnP_eq_singleton h, List.singleton_append,
    List.filter_cons_of_pos (by simpa using ha)]

theorem words_intercalate (h : ∀ l ∈ ls, l ≠ [] ∧ ∀ c ∈ l, isBlank c = false) :
    words ([' '].intercalate ls) = ls := by
  induction ls
  case nil => rfl
  case cons l ls hi =>
    have ⟨⟨hn, hl⟩, h⟩ := List.forall_mem_cons.mp h
    cases ls
    case nil =>
      rw [List.intercalate_singleton, words, split_eq_splitOnP, List.splitOnP_eq_singleton hl,
        List.filter_cons_of_pos (by simpa using hn), List.filter_nil]
    case cons => rw [List.intercalate_cons_cons, words_append hn hl, hi h]

end RightLinear.Text
