import Mathlib.Data.Set.Card
import RightLinear.Proofs.Label
import RightLinear.Proofs.NFA.Determinize

namespace RightLinear.NFA

variable {n : NFA} {first S : Labels} {sets : List Labels} {taken : List String} {s : String}

def freshName (taken : List String) (S : Labels) : String :=
  if String.join S.toList ∈ taken then braced S.toList else String.join S.toList

-- Both names of a set are taken.
def Crowded (taken : List String) (S : Labels) : Prop :=
  String.join S.toList ∈ taken ∧ braced S.toList ∈ taken

-- No set finds both of its names taken when its turn comes.
def Room (taken : List String) : List Labels → Prop
  | [] => True
  | S :: sets => ¬Crowded taken S ∧ Room (freshName taken S :: taken) sets

instance : Decidable (Crowded taken S) :=
  inferInstanceAs (Decidable (_ ∧ _))

instance decidableRoom (taken : List String) : (sets : List Labels) → Decidable (Room taken sets)
  | [] => .isTrue trivial
  | S :: sets => @instDecidableAnd _ _ _ (decidableRoom (freshName taken S :: taken) sets)

theorem freshName_mem_iff : freshName taken S ∈ taken ↔ Crowded taken S := by
  rw [freshName, Crowded]
  split
  case isTrue h  => exact (and_iff_right h).symm
  case isFalse h => exact iff_of_false h fun hc => h hc.left

theorem nameSets_cons : nameSets taken (S :: sets) =
    (S, freshName taken S) :: nameSets (freshName taken S :: taken) sets :=
  rfl

-- A name is given twice only by a set that finds no room.
theorem nodup_nameSets_iff : (∀ name ∈ (nameSets taken sets).map (·.2), name ∉ taken) ∧
    ((nameSets taken sets).map (·.2)).Nodup ↔ Room taken sets := by
  induction sets generalizing taken
  case nil            => exact iff_of_true ⟨nofun, .nil⟩ trivial
  case cons S sets hi =>
    rw [Room, ← hi, ← freshName_mem_iff, nameSets_cons, List.map_cons, List.forall_mem_cons,
      List.nodup_cons]
    simp only [List.mem_cons, not_or]
    constructor
    case mp =>
      intro ⟨⟨hf, ht⟩, hn, hd⟩
      exact ⟨hf, fun a ha => ⟨fun he => hn (he ▸ ha), ht a ha⟩, hd⟩
    case mpr =>
      intro ⟨hf, ht, hd⟩
      exact ⟨⟨hf, fun a ha => (ht a ha).right⟩, fun hm => (ht _ hm).left rfl, hd⟩

theorem nodup_subsets : (n.subsets first).Nodup :=
  Search.explore_nodup

theorem map_snd_nameSets_subsets : (nameSets [] (n.subsets first)).map (·.2) =
    (n.subsets first).map (n.names first) := by
  rw [nameSets_subsets, List.map_map]
  rfl

theorem nodup_names_iff : ((n.subsets first).map (n.names first)).Nodup ↔
    Room [] (n.subsets first) := by
  rw [← map_snd_nameSets_subsets, ← nodup_nameSets_iff]
  exact (and_iff_right fun _ _ => List.not_mem_nil).symm

theorem size_subsetDFA_iff :
    (n.subsetDFA first).states.size = (n.subsets first).length ↔ Room [] (n.subsets first) := by
  have hl : (n.subsets first).length = ((nameSets [] (n.subsets first)).map (·.2)).length := by
    rw [map_snd_nameSets_subsets, List.length_map]
  rw [← nodup_names_iff, ← map_snd_nameSets_subsets, hl]
  exact SortedSet.size_ofList_iff

namespace Valid

variable (hv : n.Valid) (hf : ∀ t ∈ first, t ∈ n.states)
include hv hf

theorem ncard_reached : {S | n.Reached first S}.ncard = (n.subsets first).length := by
  have hs : {S | n.Reached first S} = ((n.subsets first).toFinset : Set Labels) := by
    ext S
    simp [hv.mem_subsets_iff hf]
  rw [hs, Set.ncard_coe_finset, List.toFinset_card_of_nodup nodup_subsets]

theorem injOn_names_iff :
    Set.InjOn (n.names first) {S | n.Reached first S} ↔ Room [] (n.subsets first) := by
  rw [← nodup_names_iff, List.nodup_map_iff_inj_on nodup_subsets]
  simp only [Set.InjOn, Set.mem_ofPred_eq, hv.mem_subsets_iff hf]

end Valid

-- The braced name of a set is not looked up, so it may be taken as well, and then two sets become
-- one state.
theorem toDFA_names_apart_iff (hv : n.Valid) (hs : n.start = some s) : ∃ first d,
    n.closure (.singleton s) = first ∧ n.toDFA = .ok d ∧ DFA.make d = .ok d ∧
      (∀ q, q ∈ d.states ↔ ∃ S, n.Reached first S ∧ n.names first S = q) ∧
      (Set.InjOn (n.names first) {S | n.Reached first S} ↔ Room [] (n.subsets first)) ∧
      (d.states.size = {S | n.Reached first S}.ncard ↔ Room [] (n.subsets first)) ∧
      (Room [] (n.subsets first) → n.Determinized first (n.names first) d ∧
        ∀ w, (∀ a ∈ w, a ∈ n.alphabet) → d.accepts w = n.accepts w) := by
  have hf := hv.closure_start_sub hs
  refine ⟨_, _, rfl, toDFA_eq hs, (hv.valid_subsetDFA hf).make_eq, fun q => ?_,
    hv.injOn_names_iff hf, ?_, fun hr => ?_⟩
  · simp only [mem_states_subsetDFA, hv.mem_subsets_iff hf]
  · rw [hv.ncard_reached hf, size_subsetDFA_iff]
  · have hd := hv.determinized hf ((hv.injOn_names_iff hf).mpr hr)
    refine ⟨hd, fun w hw => ?_⟩
    rw [hd.accepts_eq closure_singleton_ne_empty hw, accepts_eq_meets hs]

theorem toDFA_names_apart_clashing : clashing.Valid ∧ clashing.start = some "S" ∧
    ∃ first d, clashing.closure (.singleton "S") = first ∧ clashing.toDFA = .ok d ∧
      Room [] (clashing.subsets first) ∧ d.states.size = {S | clashing.Reached first S}.ncard := by
  have hv : clashing.Valid := by decide +kernel
  have ⟨first, d, he, hd, _, _, _, hc, _⟩ := toDFA_names_apart_iff hv (s := "S") rfl
  have hr : Room [] (clashing.subsets first) := he ▸ by decide +kernel
  exact ⟨hv, rfl, first, d, he, hd, hr, hc.mpr hr⟩

-- A label that is a braced name, then a set whose name is taken, then the set of the braced name.
def crowding : NFA :=
  let bare := { NFA.empty with alphabet := ["a", "b"] }
  let arrows : List (Arrow String) :=
    [⟨"\x7bA,B\x7d", "a", "AB"⟩, ⟨"\x7bA,B\x7d", "b", "A"⟩, ⟨"\x7bA,B\x7d", "b", "B"⟩]
  arrows.foldl (fun n r => n.link r.source r.symbol r.target)
    ((bare.setStart "\x7bA,B\x7d").addAccepting "B")

-- The start state is that of A and B as well, so the empty word is accepted.
theorem not_toDFA_names_apart_crowding :
    crowding.Valid ∧ crowding.start = some "\x7bA,B\x7d" ∧
    ∃ first d, crowding.closure (.singleton "\x7bA,B\x7d") = first ∧ crowding.toDFA = .ok d ∧
      d.states.size = 2 ∧ {S | crowding.Reached first S}.ncard = 3 ∧
      (∃ S T, crowding.Reached first S ∧ crowding.Reached first T ∧ S ≠ T ∧
        crowding.names first S = crowding.names first T) ∧
      d.accepts [] = true ∧ crowding.accepts [] = false := by
  have hv : crowding.Valid := by decide +kernel
  have hs : crowding.start = some "\x7bA,B\x7d" := rfl
  have hf := hv.closure_start_sub hs
  have hm {S : Labels} := hv.mem_subsets_iff hf (S := S)
  refine ⟨hv, hs, _, _, rfl, toDFA_eq hs, by decide +kernel, ?_, ?_, by decide +kernel,
    by decide +kernel⟩
  · rw [hv.ncard_reached hf]
    decide +kernel
  · refine ⟨.singleton "\x7bA,B\x7d", .ofList ["A", "B"], hm.mp ?_, hm.mp ?_, ?_, ?_⟩ <;>
      decide +kernel

end RightLinear.NFA
