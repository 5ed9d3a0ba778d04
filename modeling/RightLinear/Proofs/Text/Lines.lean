import Mathlib.Data.List.Basic
import RightLinear.Text.Blank
import RightLinear.Text.Lines

namespace RightLinear.Text

section

variable {α : Type} {stop : α} {a b l : List α} {ls ms : List (List α)}

-- What stands before the first mark, and what after it.
theorem append_stop_inj {m : List α} (hl : stop ∉ l) (hm : stop ∉ m)
    (h : l ++ stop :: a = m ++ stop :: b) : l = m ∧ a = b := by
  induction l generalizing m
  case nil =>
    cases m
    case nil  => exact ⟨rfl, (List.cons.inj h).right⟩
    case cons => exact absurd ((List.cons.inj h).left ▸ .head _) hm
  case cons c l hi =>
    have ⟨hc, hl⟩ := not_or.mp (List.mem_cons.not.mp hl)
    cases m
    case nil  => exact absurd (List.cons.inj h).left.symm hc
    case cons =>
      have ⟨hc, h⟩ := List.cons.inj h
      have ⟨he, h⟩ := hi hl (not_or.mp (List.mem_cons.not.mp hm)).right h
      exact ⟨congr (congrArg _ hc) he, h⟩

-- Lines with an end after each.
def ended (stop : α) (ls : List (List α)) : List α :=
  ls.flatMap (· ++ [stop])

theorem ended_cons : ended stop (l :: ls) = l ++ stop :: ended stop ls := by
  rw [ended, List.flatMap_cons, List.append_assoc, List.singleton_append]
  rfl

theorem ended_append : ended stop (ls ++ ms) = ended stop ls ++ ended stop ms :=
  List.flatMap_append

theorem exists_ended (h : a = [] ∨ a.getLast? = some stop) :
    ∃ ls : List (List α), (∀ l ∈ ls, stop ∉ l) ∧ ended stop ls = a := by
  induction a
  case nil => exact ⟨[], by simp, rfl⟩
  case cons c a hi =>
    have hl := h.resolve_left (List.cons_ne_nil c a)
    rw [List.getLast?_cons] at hl
    have ha : a = [] ∨ a.getLast? = some stop := by
      cases a
      case nil  => exact .inl rfl
      case cons => exact .inr (by simpa [List.getLast?_cons] using hl)
    have ⟨ls, hs, he⟩ := hi ha
    by_cases hc : c = stop
    case pos => exact ⟨[] :: ls, by simpa using hs, by rw [ended_cons, he, hc]; rfl⟩
    case neg =>
      cases ls
      case nil =>
        have he : a = [] := he.symm
        rw [he] at hl
        exact absurd (Option.some.inj hl) hc
      case cons l ls =>
        have ⟨hl, hs⟩ := List.forall_mem_cons.mp hs
        refine ⟨(c :: l) :: ls, List.forall_mem_cons.mpr ⟨?_, hs⟩, ?_⟩
        case refine_1 => exact List.not_mem_cons_of_ne_of_not_mem (Ne.symm hc) hl
        case refine_2 => rw [ended_cons, List.cons_append, ← ended_cons, he]

-- As far as two texts consist of ended lines, they have the same lines.
theorem prefix_or_prefix_of_ended (hl : ∀ l ∈ ls, stop ∉ l) (hm : ∀ l ∈ ms, stop ∉ l)
    (h : ended stop ls ++ a = ended stop ms ++ b) : ls <+: ms ∨ ms <+: ls := by
  induction ls generalizing ms
  case nil => exact .inl List.nil_prefix
  case cons l ls hi =>
    cases ms
    case nil => exact .inr List.nil_prefix
    case cons m ms =>
      have ⟨hl, hls⟩ := List.forall_mem_cons.mp hl
      have ⟨hm, hms⟩ := List.forall_mem_cons.mp hm
      rw [ended_cons, ended_cons, List.append_assoc, List.append_assoc] at h
      have ⟨he, h⟩ := append_stop_inj hl hm h
      rw [he, List.prefix_cons_inj, List.prefix_cons_inj]
      exact hi hls hms h

-- A text that consists of ended lines begins with other ended lines only where these are its first.
theorem prefix_of_ended (hl : ∀ l ∈ ls, stop ∉ l) (hm : ∀ l ∈ ms, stop ∉ l)
    (h : ended stop ls = ended stop ms ++ b) : ms <+: ls := by
  have he : ended stop ls ++ [] = ended stop ms ++ b := by rwa [List.append_nil]
  cases prefix_or_prefix_of_ended hl hm he
  case inr hp => exact hp
  case inl hp =>
    have ⟨ns, hs⟩ := hp
    rw [← hs, ended_append, List.append_assoc] at h
    have hn := (List.append_eq_nil_iff.mp (List.self_eq_append_right.mp h)).left
    have he : ns = [] := by
      cases ns
      case nil  => rfl
      case cons => simp [ended_cons] at hn
    have hs : ls = ms := by rw [← hs, he, List.append_nil]
    exact hs ▸ List.prefix_rfl

end

variable {c : Char} {cs a b l : List Char} {ls ms : List (List Char)}

-- What holds of all characters of a text is found out by going through the text, even where all
-- characters that there are could be gone through.
instance decidableForallMem {p : Char → Prop} [DecidablePred p] : Decidable (∀ c ∈ cs, p c) :=
  List.decidableBAll p cs

theorem isBlank_of_isBreak (h : isBreak c = true) : isBlank c = true := by
  simp only [isBreak, Bool.or_eq_true, Bool.and_eq_true, decide_eq_true_eq, beq_iff_eq] at h
  simp only [isBlank, Bool.or_eq_true, Bool.and_eq_true, decide_eq_true_eq, beq_iff_eq]
  omega

theorem not_break_of_not_blank (h : isBlank c = false) : isBreak c = false :=
  Bool.eq_false_iff.mpr fun hb => Bool.eq_false_iff.mp h (isBlank_of_isBreak hb)

-- A character more in the first of some pieces; if there is none, it is one.
def prepend (c : Char) : List (List Char) → List (List Char)
  | [] => [[c]]
  | l :: ls => (c :: l) :: ls

theorem prepend_append (h : ls ≠ []) : prepend c (ls ++ ms) = prepend c ls ++ ms := by
  cases ls
  case nil  => contradiction
  case cons => rfl

-- A carriage return before a line feed does not end a line by itself.
theorem lines_cons_of_break (hb : isBreak c = true)
    (hn : ∀ cs', c = '\r' → cs = '\n' :: cs' → False) : lines (c :: cs) = [] :: lines cs := by
  rw [lines.eq_3 c cs hn, if_pos hb]

theorem lines_cons_of_not_break (hb : isBreak c = false) :
    lines (c :: cs) = prepend c (lines cs) := by
  have hc : c ≠ '\r' := fun he => by simp [he, isBreak] at hb
  rw [lines.eq_3 c cs fun _ he => absurd he hc, if_neg (by simp [hb])]
  cases lines cs <;> rfl

theorem lines_ne_nil (h : cs ≠ []) : lines cs ≠ [] := by
  cases cs using lines.induct
  case case1             => contradiction
  case case2             => simp [lines]
  case case3 hn hb _     => simp [lines_cons_of_break hb hn]
  case case4 hb he _     => simp [lines_cons_of_not_break (Bool.eq_false_iff.mpr hb), he, prepend]
  case case5 hb _ _ he _ => simp [lines_cons_of_not_break (Bool.eq_false_iff.mpr hb), he, prepend]

-- A break that is followed by something still ends a line of its own when more comes after that.
theorem lines_cons_append_of_break (hb : isBreak c = true) (h : cs ≠ [])
    (hn : ∀ cs', c = '\r' → cs = '\n' :: cs' → False) :
    lines (c :: (cs ++ a)) = [] :: lines (cs ++ a) := by
  refine lines_cons_of_break hb fun cs' hc he => ?_
  cases cs
  case nil       => contradiction
  case cons d cs => exact hn cs hc (by rw [(List.cons.inj he).left])

-- A line feed always ends a line.
theorem lines_append_newline : lines (a ++ '\n' :: b) = lines (a ++ ['\n']) ++ lines b := by
  have step {c : Char} {cs : List Char} (hb : isBreak c = false)
      (hi : lines (cs ++ '\n' :: b) = lines (cs ++ ['\n']) ++ lines b) :
      lines (c :: cs ++ '\n' :: b) = lines (c :: cs ++ ['\n']) ++ lines b := by
    rw [List.cons_append, List.cons_append, lines_cons_of_not_break hb, hi,
      prepend_append (lines_ne_nil (by simp)), lines_cons_of_not_break hb]
  induction a using lines.induct
  case case1       => rfl
  case case2 cs hi => exact congrArg ([] :: ·) hi
  case case3 c cs hn hb hi =>
    by_cases hc : cs = []
    case neg =>
      rw [List.cons_append, List.cons_append, lines_cons_append_of_break hb hc hn,
        lines_cons_append_of_break hb hc hn, hi, List.cons_append]
    case pos =>
      subst hc
      by_cases hr : c = '\r'
      case pos => exact hr ▸ rfl
      case neg =>
        have hl {d : List Char} : lines (c :: d) = [] :: lines d :=
          lines_cons_of_break hb fun _ he => absurd he hr
        rw [List.cons_append, List.cons_append, hl, hl]
        rfl
  case case4 hb _ hi     => exact step (Bool.eq_false_iff.mpr hb) hi
  case case5 hb _ _ _ hi => exact step (Bool.eq_false_iff.mpr hb) hi

-- A line feed at the end adds an empty line, unless it ends a line that was open, or that a
-- carriage return has ended.
theorem lines_append_singleton_newline :
    lines (a ++ ['\n']) = lines a ∨ lines (a ++ ['\n']) = lines a ++ [[]] := by
  have step {c : Char} {cs : List Char} (hb : isBreak c = false)
      (hi : lines (cs ++ ['\n']) = lines cs ∨ lines (cs ++ ['\n']) = lines cs ++ [[]]) :
      lines (c :: cs ++ ['\n']) = lines (c :: cs) ∨
        lines (c :: cs ++ ['\n']) = lines (c :: cs) ++ [[]] := by
    rw [List.cons_append, lines_cons_of_not_break hb, lines_cons_of_not_break hb]
    by_cases hc : cs = []
    case pos =>
      subst hc
      exact .inl rfl
    case neg =>
      rw [← prepend_append (lines_ne_nil hc)]
      exact hi.imp (congrArg (prepend c)) (congrArg (prepend c))
  induction a using lines.induct
  case case1       => exact .inr rfl
  case case2 cs hi => exact hi.imp (congrArg ([] :: ·)) (congrArg ([] :: ·))
  case case3 c cs hn hb hi =>
    rw [lines_cons_of_break hb hn]
    by_cases hc : cs = []
    case neg =>
      rw [List.cons_append, lines_cons_append_of_break hb hc hn]
      exact hi.imp (congrArg ([] :: ·)) (congrArg ([] :: ·))
    case pos =>
      subst hc
      by_cases hr : c = '\r'
      case pos => exact .inl (hr ▸ rfl)
      case neg =>
        rw [List.singleton_append, lines_cons_of_break hb fun _ he => absurd he hr]
        exact .inr rfl
  case case4 hb _ hi     => exact step (Bool.eq_false_iff.mpr hb) hi
  case case5 hb _ _ _ hi => exact step (Bool.eq_false_iff.mpr hb) hi

-- An end that is rewritten is one end of a line before and after, the two characters together as
-- well as either of them alone.
theorem lines_normalize : lines (normalize cs) = lines cs := by
  have step {c : Char} {cs : List Char} (hb : isBreak c = false)
      (hn : ∀ cs', c = '\r' → cs = '\n' :: cs' → False) (hi : lines (normalize cs) = lines cs) :
      lines (normalize (c :: cs)) = lines (c :: cs) := by
    have hc : c ≠ '\r' := fun he => absurd (he ▸ hb) (by decide)
    rw [normalize.eq_3 c cs hn, if_neg hc, lines_cons_of_not_break hb, hi,
      lines_cons_of_not_break hb]
  induction cs using lines.induct
  case case1       => rfl
  case case2 cs hi => exact congrArg ([] :: ·) hi
  case case3 c cs hn hb hi =>
    rw [normalize.eq_3 c cs hn, lines_cons_of_break hb hn, ← hi]
    split
    case isTrue     => rfl
    case isFalse hc => exact lines_cons_of_break hb fun _ he => absurd he hc
  case case4 hn hb _ hi     => exact step (Bool.eq_false_iff.mpr hb) hn hi
  case case5 hn hb _ _ _ hi => exact step (Bool.eq_false_iff.mpr hb) hn hi

theorem lines_line (hl : ∀ c ∈ l, isBreak c = false) : lines (l ++ '\n' :: b) = l :: lines b := by
  induction l
  case nil => rfl
  case cons c l hi =>
    have ⟨hc, hl⟩ := List.forall_mem_cons.mp hl
    rw [List.cons_append, lines_cons_of_not_break hc, hi hl]
    rfl

theorem lines_ended (h : ∀ l ∈ ls, ∀ c ∈ l, isBreak c = false) : lines (ended '\n' ls) = ls := by
  induction ls
  case nil => rfl
  case cons l ls hi =>
    have ⟨hl, h⟩ := List.forall_mem_cons.mp h
    rw [ended_cons, lines_line hl, hi h]

theorem not_break_of_mem_lines (h : l ∈ lines cs) : ∀ c ∈ l, isBreak c = false := by
  induction cs using lines.induct generalizing l
  case case1 => simp [lines] at h
  case case2 hi =>
    cases List.mem_cons.mp h
    case inl h => simp [h]
    case inr h => exact hi h
  case case3 hn hb hi =>
    rw [lines_cons_of_break hb hn] at h
    cases List.mem_cons.mp h
    case inl h => simp [h]
    case inr h => exact hi h
  case case4 c cs _ hb he _ =>
    rw [lines_cons_of_not_break (Bool.eq_false_iff.mpr hb), he] at h
    simpa [List.mem_singleton.mp h] using hb
  case case5 c cs _ hb m ms he hi =>
    rw [lines_cons_of_not_break (Bool.eq_false_iff.mpr hb), he] at h
    cases List.mem_cons.mp h
    case inl h =>
      rw [h]
      exact List.forall_mem_cons.mpr ⟨Bool.eq_false_iff.mpr hb, hi (he ▸ .head _)⟩
    case inr h => exact hi (he ▸ .tail _ h)

section

variable {s t : String}

def OneLine (s : String) : Prop :=
  '\n' ∉ s.toList

instance : Decidable (OneLine s) :=
  inferInstanceAs (Decidable ('\n' ∉ s.toList))

theorem OneLine.append (hs : OneLine s) (ht : OneLine t) : OneLine (s ++ t) := by
  rw [OneLine, String.toList_append, List.mem_append, not_or]
  exact ⟨hs, ht⟩

theorem OneLine.of_subset {l : List Char} (hl : '\n' ∉ l) (h : s.toList ⊆ l) : OneLine s :=
  fun hm => hl (h hm)

theorem oneLine_of_not_blank (h : ∀ c ∈ s.toList, isBlank c = false) : OneLine s :=
  fun hm => absurd (h _ hm) (by decide)

end

end RightLinear.Text
