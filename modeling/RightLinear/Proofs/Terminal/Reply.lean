import RightLinear.Proofs.DFA.Ordered
import RightLinear.Proofs.DFA.Substitution
import RightLinear.Proofs.Terminal.Load
import RightLinear.Proofs.Text.Integer

namespace RightLinear.Terminal

open Session (line)

variable {names names' labels : List String} {pair pair' : Prop} {said word name : String}
  {first second rest : List Char} {n : Nat} {d e : DFA String} {map : Table String String}

-- How most failures begin.
def failureHeads : List String :=
  ["Error: ", "Usage: ", "Unknown command: ", "Automaton not found: ", "Grammar not found: ",
    "Not found: "]

-- How the others go on after a name.
def failureTails : List String :=
  ["is an NFA; convert it with to_dfa first", "is already a DFA"]

-- The first words when something was made, changed or deleted.
def openings : List String :=
  ["Loaded", "No", "Created:", "Created", "Removed", "Renamed:", "Deleted:", "Cleared"]

def tailLine (name tail : String) : String :=
  line (name ++ " " ++ tail)

-- What is said tells of a failure, by how it begins or by what follows a name. Where two names are
-- looked up, more may follow.
inductive Complaint (names : List String) (pair : Prop) (said : String) : Prop
  | headed {head : String} (hm : head ∈ failureHeads) (h : head.toList <+: said.toList)
  | named {name tail : String} (hn : name ∈ names) (ht : tail ∈ failureTails)
    (h : said = tailLine name tail)
  | both {name tail : String} (hp : pair) (hn : name ∈ names) (ht : tail ∈ failureTails)
    (h : (tailLine name tail).toList <+: said.toList)

theorem toList_tailLine {name tail : String} :
    (tailLine name tail).toList = name.toList ++ ' ' :: (line tail).toList := by
  simp [tailLine, line]

theorem first_word_eq {more : List Char} (hf : ' ' ∉ first) (hs : ' ' ∉ second)
    (h : first ++ ' ' :: rest <+: second ++ ' ' :: more) : first = second ∧ rest <+: more := by
  obtain ⟨after, h⟩ := h
  rw [List.append_assoc, List.cons_append] at h
  have ⟨he, hr⟩ := Text.append_stop_inj hf hs h
  exact ⟨he, after, hr⟩

namespace Complaint

theorem of_head {head text : String} (hm : head ∈ failureHeads) :
    Complaint names pair (line (head ++ text)) :=
  .headed hm (by simp [line])

theorem error {message : String} : Complaint names pair (line ("Error: " ++ message)) :=
  of_head (by decide : "Error: " ∈ failureHeads)

theorem mono (h : Complaint names pair said) (hn : names ⊆ names') (hp : pair → pair') :
    Complaint names' pair' said := by
  cases h
  case headed hm h     => exact .headed hm h
  case named hm ht h   => exact .named (hn hm) ht h
  case both hq hm ht h => exact .both (hp hq) (hn hm) ht h

theorem append (h : Complaint names pair said) (hp : pair) {more : String} :
    Complaint names pair (said ++ more) := by
  have extended {l : List Char} (h : l <+: said.toList) : l <+: (said ++ more).toList :=
    String.toList_append ▸ h.trans (List.prefix_append ..)
  cases h
  case headed hm h    => exact .headed hm (extended h)
  case named hm ht h  => exact .both hp hm ht (extended (h ▸ List.prefix_rfl))
  case both _ hm ht h => exact .both hp hm ht (extended h)

-- With such a first word, the word must be a name that is complained of.
theorem exists_tail (h : Complaint names pair said) (hn : ∀ n ∈ names, ' ' ∉ n.toList)
    (hw : word ∈ openings) (hs : said.toList = word.toList ++ ' ' :: rest) :
    ∃ tail ∈ failureTails, (line tail).toList <+: rest ∧ (¬pair → rest = (line tail).toList) := by
  have plain : ∀ word ∈ openings, ' ' ∉ word.toList := by decide +kernel
  cases h
  case headed head hm h        =>
    have apart : ∀ head ∈ failureHeads, ∀ word ∈ openings,
        ¬head.toList <+: word.toList ++ [' '] ∧ ¬word.toList ++ [' '] <+: head.toList := by
      decide +kernel
    have ⟨hl, hr⟩ := apart head hm word hw
    have hp : word.toList ++ [' '] <+: said.toList := ⟨rest, by simp [hs]⟩
    exact ((List.prefix_or_prefix_of_prefix h hp).elim hl hr).elim
  case named name tail hm ht h =>
    rw [h, toList_tailLine] at hs
    have ⟨_, hr⟩ := Text.append_stop_inj (hn name hm) (plain word hw) hs
    exact ⟨tail, ht, hr ▸ List.prefix_rfl, fun _ => hr.symm⟩
  case both name tail hq hm ht h =>
    rw [hs, toList_tailLine] at h
    have ⟨_, hp⟩ := first_word_eq (hn name hm) (plain word hw) h
    exact ⟨tail, ht, hp, (absurd hq ·)⟩

end Complaint

section

variable (hn : ∀ n ∈ names, ' ' ∉ n.toList) (hw : word ∈ openings)
include hn hw

theorem not_complaint_of_one_word (hs : said.toList = word.toList ++ ' ' :: rest)
    (hr : ' ' ∉ rest) : ¬Complaint names pair said := by
  intro h
  have ⟨tail, ht, hp, _⟩ := h.exists_tail hn hw hs
  have space : ∀ tail ∈ failureTails, ' ' ∈ tail.toList := by decide
  exact hr (hp.subset (by simp [line, space tail ht]))

theorem not_complaint_of_second_word
    (hs : said.toList = word.toList ++ ' ' :: (second ++ ' ' :: rest))
    (hb : ' ' ∉ second) (hi : second ≠ "is".toList) : ¬Complaint names pair said := by
  intro h
  have ⟨tail, ht, hp, _⟩ := h.exists_tail hn hw hs
  have is : ∀ tail ∈ failureTails, ∃ more, (line tail).toList = "is".toList ++ ' ' :: more := by
    simp [failureTails, line]
  obtain ⟨more, hm⟩ := is tail ht
  exact hi (first_word_eq (by decide) hb (hm ▸ hp)).left.symm

theorem not_complaint_of_number
    (hs : said.toList = word.toList ++ ' ' :: ((toString n).toList ++ ' ' :: rest)) :
    ¬Complaint names pair said := by
  have digits {c : Char} (hc : c.isDigit = false) : c ∉ (toString n).toList := fun hm =>
    Bool.false_ne_true (hc.symm.trans (Text.isDigit_of_mem_toString hm))
  have hi : (toString n).toList ≠ "is".toList := fun he =>
    absurd (he ▸ .head _) (digits (by decide : 'i'.isDigit = false))
  exact not_complaint_of_second_word hn hw hs (digits rfl) hi

theorem not_complaint_of_name {opening : String} (ho : opening.toList = word.toList ++ [' '])
    (hb : ' ' ∉ name.toList) : ¬Complaint names pair (line (opening ++ name)) := by
  have hs : (line (opening ++ name)).toList = word.toList ++ ' ' :: (name.toList ++ ['\n']) := by
    simp [line, ho]
  exact not_complaint_of_one_word hn hw hs (by simpa using hb)

end

-- What is said of a DFA that was changed in place.
def announcement : DFA.Edit → DFA String → DFA String → String
  | .trim, d, e => line s!"Removed {d.states.size - e.states.size} unreachable states"
  | .relabelReadable, _, e | .relabelWith _, _, e =>
    line ("Renamed: " ++ ", ".intercalate e.orderedStates)

section

variable (hn : ∀ n ∈ names, ' ' ∉ n.toList)
include hn

theorem not_complaint_loaded {cases : Nat} {keys : List String} :
    ¬Complaint names pair (line (Session.loadText cases keys)) := by
  rw [Session.loadText]
  split
  case isTrue  =>
    have hs : (line "No items loaded").toList =
        "No".toList ++ ' ' :: ("items".toList ++ ' ' :: (line "loaded").toList) := rfl
    exact not_complaint_of_second_word hn (by decide) hs (by decide) (by decide)
  case isFalse =>
    let counts := s!"Loaded {cases} test cases and {keys.length} grammars: "
    let more := s!"test cases and {keys.length} grammars: " ++ ", ".intercalate keys
    have hs : (line (counts ++ ", ".intercalate keys)).toList =
        "Loaded".toList ++ ' ' :: ((toString cases).toList ++ ' ' :: (line more).toList) := by
      simp [line, counts, more, toString]
    exact not_complaint_of_number hn (by decide) hs

theorem not_complaint_createdAutomaton :
    ¬Complaint names pair (line ("Created automaton: " ++ name)) := by
  have hs : (line ("Created automaton: " ++ name)).toList =
      "Created".toList ++ ' ' :: ("automaton:".toList ++ ' ' :: (line name).toList) := by
    simp [line]
  exact not_complaint_of_second_word hn (by decide) hs (by decide) (by decide)

theorem not_complaint_trimmed : ¬Complaint names pair (announcement .trim d e) := by
  let removed := d.states.size - e.states.size
  have hs : (announcement .trim d e).toList = "Removed".toList ++ ' ' ::
      ((toString removed).toList ++ ' ' :: (line "unreachable states").toList) := by
    simp [announcement, line, removed, toString]
  exact not_complaint_of_number hn (by decide) hs

theorem not_complaint_cleared : ¬Complaint names pair (line "Cleared all") :=
  not_complaint_of_one_word hn (by decide : "Cleared" ∈ openings) rfl (by decide)

omit hn in
theorem eq_singleton_of_intercalate (h : ", ".intercalate labels = name) (hn : name ≠ "")
    (hc : ',' ∉ name.toList) : labels = [name] := by
  match labels with
  | []          => exact absurd h.symm hn
  | [_]         => exact congrArg ([·]) (by simpa using h)
  | _ :: _ :: _ => simp [← h, String.toList_intercalate] at hc

theorem exists_label_of_renamed (hp : ¬pair)
    (h : Complaint names pair (line ("Renamed: " ++ ", ".intercalate labels))) :
    ∃ label, labels = [label] ∧ ' ' ∈ label.toList := by
  have hs : (line ("Renamed: " ++ ", ".intercalate labels)).toList =
      "Renamed:".toList ++ ' ' :: (line (", ".intercalate labels)).toList := by
    simp [line]
  have ⟨tail, ht, _, he⟩ := h.exists_tail hn (by decide) hs
  have he : ", ".intercalate labels = tail := by
    simpa [line, ← String.toList_inj] using he hp
  have alone : ∀ tail ∈ failureTails, tail ≠ "" ∧ ',' ∉ tail.toList ∧ ' ' ∈ tail.toList := by
    decide
  have ⟨hne, hc, hb⟩ := alone tail ht
  exact ⟨tail, eq_singleton_of_intercalate he hne hc, hb⟩

-- The labels make up such a line only if all states have one label and it has a space. No map brings
-- a space in, so it is the old label.
theorem eq_of_complaint_renamed (hv : d.Valid) (hr : d.NoStrayRow) (he : d.relabelWith map = .ok e)
    (hm : ∀ s ∈ d.states, ∀ label, map.find? s = some label → ' ' ∉ label.toList) (hp : ¬pair)
    (h : Complaint names pair (line ("Renamed: " ++ ", ".intercalate e.orderedStates))) :
    e = d := by
  have ⟨label, hl, hb⟩ := exists_label_of_renamed hn hp h
  obtain rfl : d.relabelled (DFA.newLabel map) = e := (DFA.relabel_eq_ok_iff.mp he).right
  refine DFA.Valid.relabelled_of_fixed hv hr fun s hs => ?_
  cases hf : map.find? s
  case none   => rw [DFA.newLabel, hf, Option.getD_none]
  case some t =>
    have ht : DFA.newLabel map s = t := by rw [DFA.newLabel, hf, Option.getD_some]
    have hw : (d.relabelled (DFA.newLabel map)).Valid := DFA.Valid.relabelled hv _
    have he := (DFA.mem_orderedStates_iff hw.start_mem).mpr (SortedSet.mem_image.mpr ⟨s, hs, ht⟩)
    rw [hl, List.mem_singleton] at he
    exact absurd (he ▸ hb) (hm s hs t hf)

end

end RightLinear.Terminal
