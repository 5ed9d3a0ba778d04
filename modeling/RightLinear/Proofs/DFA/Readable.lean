import RightLinear.Proofs.InPlace
import RightLinear.Proofs.Key

namespace RightLinear

theorem letters_startLabel :
    letters startLabel = "ABCDEFGHIJKLMNOPQRTUVWXYZ".toList.map String.singleton := by
  decide +kernel

-- In rounds of twenty-five: the round is the number after the letter, the first one has none.
theorem exists_letter (k : Nat) :
    ∃ c : Char, "ABCDEFGHIJKLMNOPQRTUVWXYZ".toList[k % 25]? = some c ∧
      readable startLabel k = .singleton c ++ if k / 25 = 0 then "" else toString (k / 25) := by
  have hl : "ABCDEFGHIJKLMNOPQRTUVWXYZ".toList.length = 25 := by decide +kernel
  have hk : k % 25 < "ABCDEFGHIJKLMNOPQRTUVWXYZ".toList.length := hl ▸ Nat.mod_lt _ (by decide)
  have ⟨_, he⟩ := readable_eq startLabel k
  simp only [letters_startLabel, List.getElem_map, List.length_map, hl] at he
  exact ⟨_, List.getElem?_eq_getElem hk, he⟩

namespace DFA

variable {d e : DFA String} {f : String → String} {s : String} {k : Nat}

-- A DFA that is another one under new labels, one for each state.
structure Isomorphism (d e : DFA String) (f : String → String) : Prop where
  bijOn     : Set.BijOn f {s | s ∈ d.states} {t | t ∈ e.states}
  alphabet  : e.alphabet = d.alphabet
  start     : e.start = d.start.map f
  accepting : ∀ t, t ∈ e.accepting ↔ ∃ s ∈ d.accepting, f s = t
  sources   : ∀ t, t ∈ e.transitions.keys ↔ ∃ s ∈ d.transitions.keys, f s = t
  rows      : ∀ s ∈ d.states,
    e.transitions.find? (f s) = (d.transitions.find? s).map (Table.map fun _ => f)

theorem Relabelling.isomorphism (hf : Relabelling d f) : Isomorphism d (d.relabelled f) f where
  alphabet    := rfl
  start       := rfl
  accepting _ := SortedSet.mem_image
  sources _   := mem_keys_relabelled
  rows _      := hf.find?_relabelled
  bijOn       := by
    refine ⟨fun s hs => SortedSet.mem_image.mpr ⟨s, hs, rfl⟩, hf.injOn, fun t ht => ?_⟩
    have ⟨s, hs, he⟩ := SortedSet.mem_image.mp ht
    exact ⟨s, hs, he⟩

-- The states in order, without the start state.
def others (d : DFA String) : List String :=
  d.states.toList.filter (d.start ≠ some ·)

def readableLabel (d : DFA String) (s : String) : String :=
  (d.readableLabels.find? s).getD s

theorem mem_others_iff : s ∈ d.others ↔ s ∈ d.states ∧ d.start ≠ some s := by
  simp [others]

theorem readableLabel_start (hs : s ∈ d.states) (h : d.start = some s) :
    d.readableLabel s = startLabel := by
  have ⟨label, hl, hc⟩ := exists_readableLabel hs
  rw [readableLabel, hl, Option.getD_some]
  rcases hc with ⟨_, hc⟩ | ⟨k, hk, _⟩
  · exact hc
  · exact absurd h (mem_others_iff.mp (List.mem_of_getElem? hk)).right

theorem readableLabel_other (h : d.others[k]? = some s) :
    d.readableLabel s = readable startLabel k := by
  have ⟨hs, hn⟩ := mem_others_iff.mp (List.mem_of_getElem? h)
  have ⟨label, hl, hc⟩ := exists_readableLabel hs
  rw [readableLabel, hl, Option.getD_some]
  rcases hc with ⟨hc, _⟩ | ⟨j, hj, hc⟩
  · exact absurd hc hn
  · have nodup : d.others.Nodup := d.states.nodup_toList.filter _
    have hjk : j = k :=
      (List.getElem?_inj (List.getElem?_eq_some_iff.mp hj).choose nodup).mp (hj.trans h.symm)
    rw [hc, hjk]

-- The labels of the start state and of the others in order.
structure ReadableLabels (d : DFA String) (f : String → String) : Prop where
  start  : ∀ s, d.start = some s → f s = "S"
  others : ∀ k s, d.others[k]? = some s →
    ∃ c : Char, "ABCDEFGHIJKLMNOPQRTUVWXYZ".toList[k % 25]? = some c ∧
      f s = .singleton c ++ if k / 25 = 0 then "" else toString (k / 25)

theorem ReadableLabels.head?_ne (hf : d.ReadableLabels f) (hs : s ∈ d.states)
    (hn : d.start ≠ some s) : (f s).toList.head? ≠ some 'S' := by
  obtain ⟨k, hk⟩ := List.mem_iff_getElem?.mp (mem_others_iff.mpr ⟨hs, hn⟩)
  have ⟨c, hc, he⟩ := hf.others k s hk
  have hS : 'S' ∉ "ABCDEFGHIJKLMNOPQRTUVWXYZ".toList := by decide +kernel
  rw [he, String.toList_append, String.toList_singleton]
  rintro ⟨⟩
  exact hS (List.mem_of_getElem? hc)

-- Only the start state gets a label with the letter S in front.
theorem Isomorphism.head?_ne (h : Isomorphism d e f) (hf : d.ReadableLabels f) {t : String}
    (ht : t ∈ e.states) (hn : e.start ≠ some t) : t.toList.head? ≠ some 'S' := by
  obtain ⟨s, hs, rfl⟩ := h.bijOn.surjOn ht
  exact hf.head?_ne hs fun hd => hn (by rw [h.start, hd, Option.map_some])

namespace Valid

variable (hv : d.Valid)
include hv

theorem readableLabels_readableLabel : d.ReadableLabels d.readableLabel where
  start s hs    := readableLabel_start (hv.start_mem s hs) hs
  others k _ hk := readableLabel_other hk ▸ exists_letter k

theorem relabelling_readableLabel (hr : d.NoStrayRow) : Relabelling d d.readableLabel :=
  ⟨hv, hr, readableLabels_injOn⟩

theorem run_relabelReadable (hr : d.NoStrayRow) :
    InPlace.relabelReadable.run d = .ok () (d.relabelled d.readableLabel) :=
  Edit.relabelReadable.run_change_of_ok hv (hv.relabelling_readableLabel hr).relabel_eq

end Valid

-- The first row without a state is at fault.
theorem run_relabelReadable_of_stray (h : ¬d.NoStrayRow) : ∃ s ∈ d.transitions.keys, s ∉ d.states ∧
    (∀ q ∈ d.transitions.keys, q ∉ d.states → ¬q < s) ∧
    InPlace.relabelReadable.run d = .error (.strayRow s) d := by
  cases hf : d.transitions.keys.find? (· ∉ d.states)
  case none   => exact absurd (fun s hs => by simpa using List.find?_eq_none.mp hf s hs) h
  case some s =>
    have hl : d.relabelReadable = .error (.strayRow s) := by
      rw [relabelReadable, relabelWith, relabel, hf]
    obtain ⟨hs, before, after, hk, hb⟩ := List.find?_eq_some_iff_append.mp hf
    refine ⟨s, List.mem_of_find?_eq_some hf, by simpa using hs, fun q hq hn hlt => ?_, ?_⟩
    · have hm : q ∈ before :=
        (Key.mem_before_iff (fun _ _ => Key.asymm) d.transitions.keys_sorted hk).mpr ⟨hq, hlt⟩
      simpa [hn] using hb q hm
    · exact Edit.relabelReadable.run_change_of_error hl

theorem relabelReadable_isomorphic (hv : d.Valid) :
    (¬d.NoStrayRow → ∃ s ∈ d.transitions.keys, s ∉ d.states ∧
      (∀ q ∈ d.transitions.keys, q ∉ d.states → ¬q < s) ∧
      InPlace.relabelReadable.run d = .error (.strayRow s) d) ∧
    (d.NoStrayRow → ∃ e f, InPlace.relabelReadable.run d = .ok () e ∧ Isomorphism d e f ∧
      d.ReadableLabels f ∧
      (∀ t ∈ e.states, e.start ≠ some t → t.toList.head? ≠ some 'S') ∧
      ∀ w, e.accepts w = d.accepts w) := by
  refine ⟨run_relabelReadable_of_stray, fun hr => ?_⟩
  have hf := hv.relabelling_readableLabel hr
  exact ⟨d.relabelled d.readableLabel, d.readableLabel, hv.run_relabelReadable hr, hf.isomorphism,
    hv.readableLabels_readableLabel,
    fun _ ht hn => hf.isomorphism.head?_ne hv.readableLabels_readableLabel ht hn,
    fun _ => hf.accepts_eq⟩

-- Labels that are readable already, but not those of their states, and a row without entries.
def crossed : DFA String where
  states      := .ofList ["A", "B", "S", "T"]
  alphabet    := ["a", "b"]
  start       := some "B"
  accepting   := .ofList ["S"]
  transitions := .ofList [("A", ∅), ("B", .ofList [("a", "S"), ("b", "A")]),
    ("S", .ofList [("a", "T"), ("b", "B")])]

def crossedStray : DFA String :=
  { crossed with transitions := crossed.transitions.insert "gone" ∅ }

theorem relabelReadable_isomorphic_crossed : crossed.Valid ∧ crossed.NoStrayRow ∧
    (∃ e f, InPlace.relabelReadable.run crossed = .ok () e ∧ Isomorphism crossed e f ∧
      f "B" = "S" ∧ f "S" = "B" ∧ ∀ w, e.accepts w = crossed.accepts w) ∧
    crossedStray.Valid ∧ ¬crossedStray.NoStrayRow ∧
    ∃ s, InPlace.relabelReadable.run crossedStray = .error (.strayRow s) crossedStray := by
  have hv : crossed.Valid := by decide +kernel
  have hr : crossed.NoStrayRow := by decide +kernel
  have hv' : crossedStray.Valid := by decide +kernel
  have hr' : ¬crossedStray.NoStrayRow := by decide +kernel
  have ⟨e, f, he, hi, hf, _, hw⟩ := (relabelReadable_isomorphic hv).right hr
  have ⟨s, _, _, _, hs⟩ := (relabelReadable_isomorphic hv').left hr'
  have ⟨c, hc, hb⟩ := hf.others 1 "S" (by decide +kernel)
  cases hc
  have hb : f "S" = "B" := hb.trans (by decide +kernel)
  exact ⟨hv, hr, ⟨e, f, he, hi, hf.start "B" rfl, hb, hw⟩, hv', hr', s, hs⟩

end DFA
end RightLinear
