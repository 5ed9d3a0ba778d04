import RightLinear.Proofs.CaseFile.Reader
import RightLinear.Proofs.CaseFile.Rule

namespace RightLinear

open Text (OneLine)

structure Text.IsWord (a : String) : Prop where
  nonempty  : a ≠ ""
  not_blank : ∀ c ∈ a.toList, isBlank c = false

theorem Text.IsWord.oneLine {a : String} (h : IsWord a) : OneLine a :=
  oneLine_of_not_blank h.not_blank

-- A grammar with its name and every side of a production on one line.
structure Grammar.OnLines (g : Grammar) : Prop where
  name      : OneLine g.name
  terminals : ∀ a ∈ g.terminals, Text.IsWord a
  left      : ∀ p ∈ g.productions, OneLine p.left
  right     : ∀ p ∈ g.productions, OneLine p.right

namespace Grammar.OnLines

variable {g : Grammar} {a left right : String}

theorem addTerminal (h : g.OnLines) (ha : Text.IsWord a) : (g.addTerminal a).OnLines := by
  rw [Grammar.addTerminal]
  split
  case isTrue  => exact h
  case isFalse =>
    have ht : ∀ b ∈ g.terminals ++ [a], Text.IsWord b := by
      simpa [or_imp, forall_and] using ⟨h.terminals, ha⟩
    exact ⟨h.name, ht, h.left, h.right⟩

theorem addNonTerminal (h : g.OnLines) : (g.addNonTerminal a).OnLines := by
  rw [Grammar.addNonTerminal]
  split
  case isTrue  => exact h
  case isFalse => exact ⟨h.name, h.terminals, h.left, h.right⟩

theorem addProduction (h : g.OnLines) (hl : OneLine left) (hr : OneLine right) :
    (g.addProduction left right).OnLines := by
  have hr : OneLine (if isEpsilonMark right then epsilon else right) := by
    split
    case isTrue  => decide
    case isFalse => exact hr
  refine ⟨h.name, h.terminals, ?_, ?_⟩
  · simpa [Grammar.addProduction, or_imp, forall_and] using ⟨h.left, hl⟩
  · simpa [Grammar.addProduction, or_imp, forall_and] using ⟨h.right, hr⟩

end Grammar.OnLines

namespace CaseFile

variable {text : List Char} {g g' : Grammar} {c : TestCase} {s : Section} {name : String}

theorem isWord_of_mem_words {w : List Char} (h : w ∈ Text.words text) :
    Text.IsWord (.ofList w) := by
  have ⟨hn, hb⟩ := Text.of_mem_words h
  exact ⟨by simpa [← String.toList_inj] using hn, by simpa using hb⟩

theorem oneLine_of_grammarName? (h : grammarName? text = some name) : OneLine name := by
  have ⟨cs, _, hn⟩ := Option.bind_eq_some_iff.mp h
  have ⟨hc, hn⟩ := Option.ite_none_right_eq_some.mp hn
  refine Text.oneLine_of_not_blank fun c hm => ?_
  rw [← Option.some.inj hn, String.toList_ofList] at hm
  simpa using List.all_eq_true.mp (Bool.and_eq_true_iff.mp hc).right c hm

theorem onLines_fill (ht : '\n' ∉ text) (h : g.OnLines) (hf : Reader.fill g s text = some g') :
    g'.OnLines := by
  cases s <;> simp only [Reader.fill, Option.some.injEq, Option.map_eq_some_iff] at hf
  case alphabet     =>
    exact hf ▸ List.foldlRecOn _ _ h fun _ h _ hw => h.addTerminal (isWord_of_mem_words hw)
  case nonTerminals => exact hf ▸ List.foldlRecOn _ _ h fun _ h _ _ => h.addNonTerminal
  case start        => exact hf ▸ ⟨h.name, h.terminals, h.left, h.right⟩
  case operation    => exact hf ▸ h
  case rules        =>
    obtain ⟨rule, hr, hf⟩ := hf
    obtain ⟨hl, hrs⟩ := subset_of_rule? hr
    exact hf ▸ List.foldlRecOn _ _ h fun _ h _ hm =>
      h.addProduction (.of_subset ht hl) (.of_subset ht (hrs _ hm))

theorem gives_onLines : Gives (fun l => '\n' ∉ l) Grammar.OnLines OneLine where
  header _ hn := ⟨oneLine_of_grammarName? hn, nofun, nofun, nofun⟩
  fill hl hg hf := onLines_fill (fun hm => hl (Text.trim_subset hm)) hg hf
  operation hl := .of_subset hl (by rw [String.toList_ofList]; exact Text.trim_subset)

-- No line of a text has a line feed, so no name, rule or operation that is read has one.
theorem onLines_of_read {reading : Reading} (h : read text = .ok reading)
    (hc : c ∈ reading.cases) : Holds Grammar.OnLines OneLine c := by
  refine holds_of_read gives_onLines (fun l hl hm => ?_) h hc
  exact absurd (Text.not_break_of_mem_lines hl _ hm) (by decide)

end CaseFile
end RightLinear
