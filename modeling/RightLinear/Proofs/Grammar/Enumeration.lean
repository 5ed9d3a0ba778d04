import RightLinear.Grammar.Enumeration
import RightLinear.Proofs.Grammar.Words
import RightLinear.Proofs.Search

namespace RightLinear.Grammar

variable {g : Grammar} {rules : List (String × Shape)} {bound : Int} {form f : Form}
  {s left a b x : String} {word : List String}

theorem mem_shapesOf_iff {shape : Shape} {head : String} :
    shape ∈ shapesOf rules head ↔ (head, shape) ∈ rules := by
  simp [shapesOf, List.mem_filterMap]

namespace Form

theorem hasRoom_iff : form.hasRoom bound = true ↔ form.read.length + 1 ≤ bound :=
  decide_eq_true_iff

-- The form that a production leads to.
def after (bound : Int) (form : Form) : Shape → Option Form
  | .step a next => if form.hasRoom bound then some ⟨form.read ++ a, next⟩ else none
  | _ => none

-- The word that a production ends in.
def ending (bound : Int) (form : Form) : Shape → Option String
  | .empty => some form.read
  | .terminal a => if form.hasRoom bound then some (form.read ++ a) else none
  | .step .. => none

def next (rules : List (String × Shape)) (bound : Int) (form : Form) : List Form :=
  (shapesOf rules form.head).filterMap (form.after bound)

def endings (rules : List (String × Shape)) (bound : Int) (form : Form) : List String :=
  (shapesOf rules form.head).filterMap (form.ending bound)

theorem mem_next_iff : f ∈ form.next rules bound ↔ form.read.length + 1 ≤ bound ∧
    ∃ a head, (form.head, .step a head) ∈ rules ∧ ⟨form.read ++ a, head⟩ = f := by
  simp only [next, List.mem_filterMap, mem_shapesOf_iff]
  constructor
  case mp =>
    rintro ⟨shape, hr, h⟩
    cases shape
    case step a head =>
      have ⟨hb, h⟩ := Option.ite_none_right_eq_some.mp h
      exact ⟨hasRoom_iff.mp hb, a, head, hr, Option.some.inj h⟩
    all_goals cases h
  case mpr =>
    rintro ⟨hb, a, head, hr, rfl⟩
    exact ⟨_, hr, if_pos (hasRoom_iff.mpr hb)⟩

theorem mem_endings_iff : x ∈ form.endings rules bound ↔
    (form.head, .empty) ∈ rules ∧ form.read = x ∨ form.read.length + 1 ≤ bound ∧
      ∃ a, (form.head, .terminal a) ∈ rules ∧ form.read ++ a = x := by
  simp only [endings, List.mem_filterMap, mem_shapesOf_iff]
  constructor
  case mp =>
    rintro ⟨shape, hr, h⟩
    cases shape
    case empty      => exact .inl ⟨hr, Option.some.inj h⟩
    case terminal a =>
      have ⟨hb, h⟩ := Option.ite_none_right_eq_some.mp h
      exact .inr ⟨hasRoom_iff.mp hb, a, hr, Option.some.inj h⟩
    case step       => cases h
  case mpr =>
    rintro (⟨hr, rfl⟩ | ⟨hb, a, hr, rfl⟩)
    · exact ⟨_, hr, rfl⟩
    · exact ⟨_, hr, if_pos (hasRoom_iff.mpr hb)⟩

end Form

namespace Enumeration

variable {e : Enumeration} {shapes : List Shape}

theorem toQueue_foldl_apply : (shapes.foldl (apply bound form) e).toQueue =
    (shapes.filterMap (form.after bound)).foldl Search.Queue.discover e.toQueue := by
  induction shapes generalizing e
  case nil => rfl
  case cons shape shapes hi =>
    rw [List.foldl_cons, hi, List.filterMap_cons]
    cases shape <;> simp only [apply, Form.after] <;> split <;> simp_all

theorem mem_words_foldl_apply : x ∈ (shapes.foldl (apply bound form) e).words ↔
    x ∈ e.words ∨ x ∈ shapes.filterMap (form.ending bound) := by
  induction shapes generalizing e
  case nil => simp
  case cons shape shapes hi =>
    rw [List.foldl_cons, hi, List.filterMap_cons]
    cases shape <;> by_cases hb : form.hasRoom bound <;>
      simp [apply, Form.ending, hb, or_assoc, or_left_comm]

-- An enumeration between two expansions has the words of the forms that are expanded.
structure Tracks (rules : List (String × Shape)) (bound : Int) (q : Search.Queue Form)
    (e : Enumeration) : Prop where
  queue : e.toQueue = q
  words : ∃ expanded, q.found = expanded ++ q.waiting ∧
    ∀ x, x ∈ e.words ↔ ∃ form ∈ expanded, x ∈ form.endings rules bound

theorem tracks_start : Tracks rules bound (.start [⟨"", s⟩]) (start s) where
  queue := rfl
  words := ⟨[], by simp [Search.start_eq], by simp [start]⟩

theorem respects : StateTransition.Respects (Search.Queue.step (Form.next rules bound))
    (step rules bound) (Tracks rules bound) := by
  rintro ⟨waiting, found⟩ ⟨q, words⟩ ⟨hq, expanded, hf, hw⟩
  cases hq
  cases waiting
  case nil => rfl
  case cons form waiting =>
    rw [Search.step_cons]
    refine ⟨_, ⟨?queue, expanded ++ [form], ?split, fun x => ?words⟩, .single rfl⟩
    case queue => rw [toQueue_foldl_apply, Search.foldl_discover]; rfl
    case split => rw [show found = _ from hf, List.append_assoc, List.append_assoc]; rfl
    case words =>
      rw [mem_words_foldl_apply, hw]
      simp [Form.endings, or_and_right, exists_or]

end Enumeration

theorem length_append_of_step (h : g.shapes = .ok rules) (hr : (left, .step a b) ∈ rules) :
    (x ++ a).length = x.length + 1 := by
  have ha : a ∈ letters rules := mem_letters_iff.mpr ⟨left, .inr ⟨b, hr⟩⟩
  rw [String.length_append, length_of_mem_letters h ha]

-- The words that a form leads to have its text before a word of its non-terminal; the bound is on
-- those that read something.
theorem exists_derives_of_leads (h : g.shapes = .ok rules)
    (hl : Search.Leads (Form.next rules bound) f form) (hx : x ∈ form.endings rules bound) :
    ∃ word, g.Derives f.head word ∧ (word = [] ∨ f.read.length + word.length ≤ bound) ∧
      f.read ++ String.join word = x := by
  induction hl using Relation.ReflTransGen.head_induction_on
  case refl =>
    rcases Form.mem_endings_iff.mp hx with ⟨hr, rfl⟩ | ⟨hb, a, hr, rfl⟩
    · exact ⟨[], (derives_nil_iff h).mpr hr, .inl rfl, by simp⟩
    · exact ⟨[a], (derives_cons_iff h).mpr (.inl ⟨hr, rfl⟩), .inr (by simpa using hb), by simp⟩
  case head f _ hn _ hi =>
    have ⟨hb, a, head, hr, he⟩ := Form.mem_next_iff.mp hn
    subst he
    have ⟨word, hd, hw, hx⟩ := hi
    simp only [length_append_of_step h hr] at hw
    refine ⟨a :: word, (derives_cons_iff h).mpr (.inr ⟨head, hr, hd⟩), .inr ?_, ?_⟩
    · rcases hw with rfl | hw
      · simpa using hb
      · simp only [List.length_cons]
        omega
    · simpa [String.append_assoc] using hx

-- The induction is on the word, letter by letter. Where it ends in a step and a production to the
-- empty word, the last form has no room, and needs none.
theorem exists_leads_of_derives (h : g.shapes = .ok rules) (hd : g.Derives f.head word)
    (hw : word = [] ∨ f.read.length + word.length ≤ bound) :
    ∃ form, Search.Leads (Form.next rules bound) f form ∧
      f.read ++ String.join word ∈ form.endings rules bound := by
  induction word generalizing f
  case nil =>
    have hr := (derives_nil_iff h).mp hd
    exact ⟨f, .refl, Form.mem_endings_iff.mpr (.inl ⟨hr, by simp⟩)⟩
  case cons a word hi =>
    have hw : f.read.length + (word.length + 1) ≤ bound := by simpa using hw
    rcases (derives_cons_iff h).mp hd with ⟨hr, rfl⟩ | ⟨head, hr, hd⟩
    · exact ⟨f, .refl, Form.mem_endings_iff.mpr (.inr ⟨by simpa using hw, a, hr, by simp⟩)⟩
    · have hn : ⟨f.read ++ a, head⟩ ∈ f.next rules bound :=
        Form.mem_next_iff.mpr ⟨by omega, a, head, hr, rfl⟩
      have room : (f.read ++ a).length + word.length ≤ bound := by
        rw [length_append_of_step h hr]
        omega
      have ⟨form, hl, hx⟩ := hi (f := ⟨f.read ++ a, head⟩) hd (.inr room)
      exact ⟨form, .head hn hl, by simpa [String.append_assoc] using hx⟩

-- The non-terminals that a step leads to.
def stepHeads (rules : List (String × Shape)) : List String :=
  rules.filterMap fun (_, shape) =>
    match shape with
    | .step _ next => some next
    | _ => none

theorem mem_stepHeads_iff : b ∈ stepHeads rules ↔ ∃ left a, (left, .step a b) ∈ rules := by
  simp only [stepHeads, List.mem_filterMap, Prod.exists]
  constructor
  case mp =>
    rintro ⟨left, shape, hr, h⟩
    cases shape
    case step a b => exact ⟨left, a, Option.some.inj h ▸ hr⟩
    all_goals cases h
  case mpr => exact fun ⟨left, a, hr⟩ => ⟨left, _, hr, rfl⟩

-- The forms with texts within a bound.
def formsUpTo (rules : List (String × Shape)) (s : String) (bound : Nat) : List Form :=
  (wordsUpTo (letters rules).toList bound).flatMap fun word =>
    (s :: stepHeads rules).map (⟨String.join word, ·⟩)

theorem mem_formsUpTo_iff {bound : Nat} : form ∈ formsUpTo rules s bound ↔
    ∃ word, word.length ≤ bound ∧ (∀ a ∈ word, a ∈ letters rules) ∧ String.join word = form.read ∧
      form.head ∈ s :: stepHeads rules := by
  cases form
  simp only [formsUpTo, List.mem_flatMap, mem_wordsUpTo, List.mem_map, Form.mk.injEq,
    SortedSet.mem_toList]
  constructor
  case mp =>
    rintro ⟨word, ⟨hl, hw⟩, head, hh, rfl, rfl⟩
    exact ⟨word, hl, hw, rfl, hh⟩
  case mpr =>
    rintro ⟨word, hl, hw, rfl, hh⟩
    exact ⟨word, ⟨hl, hw⟩, _, hh, rfl, rfl⟩

theorem mem_formsUpTo_start {bound : Nat} : ⟨"", s⟩ ∈ formsUpTo rules s bound :=
  mem_formsUpTo_iff.mpr ⟨[], by simp⟩

theorem mem_formsUpTo_of_next (h : g.shapes = .ok rules)
    (hf : form ∈ formsUpTo rules s bound.toNat) (hn : f ∈ form.next rules bound) :
    f ∈ formsUpTo rules s bound.toNat := by
  have ⟨word, _, hw, hr, _⟩ := mem_formsUpTo_iff.mp hf
  have ⟨hb, a, head, hs, he⟩ := Form.mem_next_iff.mp hn
  have hl : form.read.length = word.length :=
    hr ▸ length_join fun a ha => length_of_mem_letters h (hw a ha)
  subst he
  refine mem_formsUpTo_iff.mpr ⟨word ++ [a], ?_, ?_, by simp [hr], ?_⟩
  · rw [List.length_append, List.length_singleton]
    omega
  · intro b hb
    rcases List.mem_append.mp hb with hb | hb
    · exact hw b hb
    · exact List.mem_singleton.mp hb ▸ mem_letters_iff.mpr ⟨_, .inr ⟨_, hs⟩⟩
  · exact .tail _ (mem_stepHeads_iff.mpr ⟨_, _, hs⟩)

-- The words of the enumeration when it is over, if it ever is.
def search (g : Grammar) (bound : Int) : Except Error (Part Labels) :=
  match g.start with
  | none => .ok (.some ∅)
  | some s => do
    let rules ← g.shapes
    return (StateTransition.eval (Enumeration.step rules bound) (.start s)).map (·.words)

-- A bound below zero leaves the empty word, as zero does.
theorem length_le_toNat_iff : word.length ≤ bound.toNat ↔ word = [] ∨ word.length ≤ bound := by
  rw [← List.length_eq_zero_iff]
  omega

theorem exists_enumeration (h : g.shapes = .ok rules) (s : String) (bound : Int) :
    ∃ e ∈ StateTransition.eval (Enumeration.step rules bound) (.start s),
      ∀ x, x ∈ e.words ↔
        ∃ word, g.Derives s word ∧ word.length ≤ bound.toNat ∧ String.join word = x := by
  have closed : ∀ form ∈ formsUpTo rules s bound.toNat, ∀ f ∈ form.next rules bound,
      f ∈ formsUpTo rules s bound.toNat := fun _ hf _ hn => mem_formsUpTo_of_next h hf hn
  have seeds : ∀ form ∈ [⟨"", s⟩], form ∈ formsUpTo rules s bound.toNat := by
    simpa using mem_formsUpTo_start
  have ⟨e, ⟨_, expanded, hf, hw⟩, he⟩ := StateTransition.tr_eval Enumeration.respects
    Enumeration.tracks_start (Search.explore_mem_eval closed seeds (Nat.le_refl _))
  rw [List.append_nil] at hf
  refine ⟨e, he, fun x => ?_⟩
  rw [hw, ← hf]
  simp only [Search.mem_explore_iff closed seeds (Nat.le_refl _), List.mem_singleton,
    exists_eq_left, length_le_toNat_iff]
  constructor
  case mp =>
    rintro ⟨form, hl, hx⟩
    simpa using exists_derives_of_leads h hl hx
  case mpr =>
    rintro ⟨word, hd, hb, rfl⟩
    simpa using exists_leads_of_derives (f := ⟨"", s⟩) h hd (by simpa using hb)

-- What `derive` lists letter by letter is what the enumeration ends with, whatever the productions.
theorem search_eq : g.search bound = (g.derive bound).map .some := by
  cases hs : g.start
  case none   => simp only [search, derive, hs, Except.map]
  case some s =>
    cases h : g.shapes
    case error => simp only [search, derive, hs, h]; rfl
    case ok rules =>
      obtain ⟨words, hd, hw⟩ := mem_derive_iff hs h bound
      obtain ⟨e, he, hx⟩ := exists_enumeration h s bound
      have same : e.words = words := by
        ext x
        rw [hx, hw, derives_symbolsOf_iff]
      simp only [hd, search, hs, h, Except.map]
      exact congrArg Except.ok (Part.eq_some_iff.mpr (Part.mem_map_iff _ |>.mpr ⟨e, he, same⟩))

theorem derive_exact (hs : g.start = some s) (hg : g.Supported) (n : Nat) :
    ∃ words, g.search n = .ok (.some words) ∧ g.derive n = .ok words ∧
      (∀ x, x ∈ words ↔ ∃ word, g.Derives s word ∧ word.length ≤ n ∧ String.join word = x) ∧
      ∀ m ≤ n, g.derive m = .ok (words.filter (·.length ≤ m)) := by
  have ⟨rules, h⟩ := hg.shapes_eq_ok
  have ⟨words, hd, hw⟩ := mem_derive_iff hs h n
  refine ⟨words, ?_, hd, ?_, fun m hm => ?_⟩
  · rw [search_eq, hd, Except.map]
  · exact fun x => (hw x).trans derives_symbolsOf_iff
  · have ⟨shorter, hd, hs⟩ := mem_derive_iff hs h m
    rw [hd]
    congr 1
    ext x
    rw [hs, SortedSet.mem_filter, hw, Int.toNat_natCast, Int.toNat_natCast, decide_eq_true_iff]
    exact ⟨fun ⟨hl, hd⟩ => ⟨⟨by omega, hd⟩, hl⟩, fun ⟨⟨_, hd⟩, hl⟩ => ⟨hl, hd⟩⟩

-- Two non-terminals that lead to each other, one that is not declared and has no production, and
-- one that nothing leads to.
def cyclic : Grammar where
  name         := "G"
  nonTerminals := ["S", "A", "Z"]
  terminals    := ["b", "a"]
  start        := some "S"
  productions  := [⟨"S", "aA"⟩, ⟨"A", "aS"⟩, ⟨"A", "ε"⟩, ⟨"S", "b"⟩, ⟨"S", "aU"⟩, ⟨"Z", "bS"⟩]
  terminals_unmarked := by decide +kernel

theorem derive_exact_cyclic : cyclic.start = some "S" ∧ cyclic.Supported ∧
    cyclic.search 3 = .ok (.some (.ofList ["a", "aaa", "aab", "b"])) ∧
    cyclic.derive 2 = .ok (.ofList ["a", "b"]) := by
  have hg : cyclic.Supported := by decide +kernel
  have words : cyclic.derive 3 = .ok (.ofList ["a", "aaa", "aab", "b"]) := by decide +kernel
  have shorter : (SortedSet.ofList ["a", "aaa", "aab", "b"]).filter (·.length ≤ 2) =
      .ofList ["a", "b"] := by
    decide +kernel
  have ⟨_, hs, hd, _, hm⟩ := derive_exact (s := "S") rfl hg 3
  cases words.symm.trans hd
  exact ⟨rfl, hg, hs, shorter ▸ hm 2 (by decide)⟩

end RightLinear.Grammar
