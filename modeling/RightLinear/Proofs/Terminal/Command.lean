import RightLinear.InPlace
import RightLinear.Proofs.Table
import RightLinear.Proofs.Text.Pieces
import RightLinear.Terminal.Command

namespace RightLinear.Terminal.Command

variable {text name : String} {ws args : List String} {edit : DFA.Edit}
  {map : Table String String} {c : Command}

-- The names that a command looks up.
def operands : Command → List String
  | showGrammar name | words name _ | toNFA name _ | toDFA name _ => [name]
  | showAutomaton name | printDFA name | graph name | test name _ => [name]
  | complete name _ | complement name _ | trim name | rename name | renameWith name _ => [name]
  | product _ left right _ => [left, right]
  | delete name => [name]
  | _ => []

def isProduct : Command → Bool
  | product .. => true
  | _ => false

-- The name under which a command keeps a new automaton.
def result? : Command → Option String
  | toNFA _ result | toDFA _ result => some result
  | complete _ result | complement _ result | product _ _ _ result => some result
  | _ => none

-- The change that a command makes to the DFA with a name.
def edit? : Command → Option (String × DFA.Edit)
  | trim name => some (name, .trim)
  | rename name => some (name, .relabelReadable)
  | renameWith name map => some (name, .relabelWith map)
  | _ => none

-- A command that only says something.
def shows : Command → Bool
  | exit | help | list | run .. | showGrammar _ | words .. => true
  | showAutomaton _ | printDFA _ | graph _ | test .. => true
  | _ => false

-- Nothing that a command brings in has a space, be it a name or a label.
def Worded : Command → Prop
  | toNFA _ result | toDFA _ result => ' ' ∉ result.toList
  | complete _ result | complement _ result | product _ _ _ result => ' ' ∉ result.toList
  | renameWith _ map => ∀ s label, map.find? s = some label → ' ' ∉ label.toList
  | _ => True

-- The words of a line, the first one in lower case.
def lineWords (text : String) : List String :=
  match Text.words text.toList with
  | []           => []
  | name :: args => .ofList (Text.lower name) :: args.map .ofList

def renamingWord (p : String × String) : String :=
  p.1 ++ "=" ++ p.2

-- The words of the lines that change a DFA in place, in the shapes that `helpText` shows.
inductive Edits : List String → String → DFA.Edit → Prop
  | trim {name : String} {rest : List String} : Edits ("trim" :: name :: rest) name .trim
  | rename {name : String} {rest : List String} :
    Edits ("rename" :: name :: rest) name .relabelReadable
  | renameWith {name : String} {pairs : List (String × String)} (hn : pairs ≠ [])
    (ho : ∀ p ∈ pairs, '=' ∉ p.1.toList) :
    Edits ("rename_map" :: name :: pairs.map renamingWord) name
      (.relabelWith (.ofList pairs.reverse))

theorem ofLine?_of_lineWords {args : List String} (h : lineWords text = name :: args) :
    ofLine? text = some (ofWords name args) := by
  rw [lineWords] at h
  rw [ofLine?]
  split at h
  case h_1 => cases h
  case h_2 => cases h; simp [*]

theorem renaming?_renamingWord {p : String × String} (ho : '=' ∉ p.1.toList) :
    renaming? (renamingWord p) = some p := by
  have hl : (renamingWord p).toList = p.1.toList ++ '=' :: p.2.toList := by simp [renamingWord]
  have hp (c : Char) (hc : c ∈ p.1.toList) : (!decide (c = '=')) = true := by
    have hn : c ≠ '=' := fun he => ho (he ▸ hc)
    simp [hn]
  simp [renaming?, hl, List.takeWhile_append_of_pos hp, List.dropWhile_append_of_pos hp]

theorem renamings?_renamingWords {pairs : List (String × String)}
    (ho : ∀ p ∈ pairs, '=' ∉ p.1.toList) :
    renamings? (pairs.map renamingWord) = some (.ofList pairs.reverse) := by
  have hm : (pairs.map renamingWord).mapM renaming? = some pairs := by
    induction pairs
    case nil             => rfl
    case cons p pairs hi =>
      have ⟨hp, ho⟩ := List.forall_mem_cons.mp ho
      simp [renaming?_renamingWord hp, hi ho]
  rw [renamings?, hm, Option.map_some]

theorem ofWords_renameMap {words : List String} (hn : words ≠ []) :
    ofWords "rename_map" (name :: words) =
      match renamings? words with
      | some map => .ok (.renameWith name map)
      | none     => .error (.usage "rename_map <name> <old=new> [old=new ...]") := by
  obtain ⟨word, rest, rfl⟩ := List.exists_cons_of_ne_nil hn
  rfl

theorem Edits.exists_command (h : Edits (lineWords text) name edit) :
    ∃ c, ofLine? text = some (.ok c) ∧ c.edit? = some (name, edit) := by
  generalize hw : lineWords text = words at h
  cases h
  case trim       => exact ⟨.trim name, ofLine?_of_lineWords hw, rfl⟩
  case rename     => exact ⟨.rename name, ofLine?_of_lineWords hw, rfl⟩
  case renameWith pairs hn ho =>
    refine ⟨.renameWith name (.ofList pairs.reverse), ?_, rfl⟩
    rw [ofLine?_of_lineWords hw, ofWords_renameMap (by simpa using hn), renamings?_renamingWords ho]

theorem not_space_of_mem_lineWords (h : lineWords text = name :: args) :
    ∀ w ∈ args, ' ' ∉ w.toList := by
  rw [lineWords] at h
  split at h
  case h_1             => cases h
  case h_2 first ws hw =>
    cases h
    refine List.forall_mem_map.mpr fun w hm hs => ?_
    have ⟨_, hb⟩ := Text.of_mem_words (hw ▸ .tail first hm : w ∈ Text.words text.toList)
    exact absurd (hb ' ' (by simpa using hs)) (by decide)

theorem exists_of_mem_renamings {entries : List (String × String)} {p : String × String}
    (h : ws.mapM renaming? = some entries) (hm : p ∈ entries) :
    ∃ w ∈ ws, renaming? w = some p := by
  induction ws generalizing entries
  case nil          =>
    cases h
    cases hm
  case cons w ws hi =>
    rw [List.mapM_cons] at h
    have ⟨q, hq, h⟩ := Option.bind_eq_some_iff.mp h
    have ⟨rest, hr, h⟩ := Option.bind_eq_some_iff.mp h
    cases h
    cases hm
    case head    => exact ⟨w, .head _, hq⟩
    case tail hm =>
      have ⟨v, hv, hp⟩ := hi hr hm
      exact ⟨v, .tail _ hv, hp⟩

theorem subset_of_renaming? {w : String} {p : String × String} (h : renaming? w = some p) :
    p.2.toList ⊆ w.toList := by
  rw [renaming?] at h
  split at h
  case isFalse => cases h
  case isTrue  =>
    rw [← Option.some.inj h, String.toList_ofList]
    exact ((List.drop_suffix _ _).trans (List.dropWhile_suffix _)).subset

theorem not_space_of_renamings? (hw : ∀ w ∈ ws, ' ' ∉ w.toList) (h : renamings? ws = some map)
    (s label : String) (hm : map.find? s = some label) : ' ' ∉ label.toList := by
  have ⟨entries, he, hf⟩ := Option.map_eq_some_iff.mp h
  rw [← hf, Table.find?_ofList] at hm
  have hp : (s, label) ∈ entries := List.mem_reverse.mp (Table.mem_of_lookup_eq_some hm)
  have ⟨w, hv, hr⟩ := exists_of_mem_renamings he hp
  exact fun hs => hw w hv (subset_of_renaming? hr hs)

section

variable (h : ofWords name args = .ok c)
include h

theorem operands_subset_of_ofWords : c.operands ⊆ args := by
  revert h
  fun_cases ofWords name args <;> rintro ⟨⟩ <;> simp [operands]

theorem isProduct_iff_of_ofWords : c.isProduct = true ↔ name = "union" ∨ name = "intersect" := by
  revert h
  fun_cases ofWords name args <;> rintro ⟨⟩ <;> simp [isProduct]

theorem worded_of_ofWords (hw : ∀ w ∈ args, ' ' ∉ w.toList) : c.Worded := by
  revert h
  have headD {rest : List String} {other : String} (hr : ∀ w ∈ rest, ' ' ∉ w.toList)
      (ho : ' ' ∉ other.toList) : ' ' ∉ (rest.headD other).toList := by
    cases rest
    case nil  => exact ho
    case cons => exact hr _ (.head _)
  fun_cases ofWords name args <;> rintro ⟨⟩
  case case38 hm => exact not_space_of_renamings? (List.forall_mem_cons.mp hw).right hm
  case case14 | case16 | case26 | case28 =>
    have ⟨hw, hr⟩ := List.forall_mem_cons.mp hw
    exact headD hr (by simp [hw])
  case case30 | case32 =>
    simp only [List.forall_mem_cons] at hw
    exact headD hw.right.right (by simp [hw])
  all_goals trivial

end

end RightLinear.Terminal.Command
