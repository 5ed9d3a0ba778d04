import Mathlib.Computability.StateTransition
import RightLinear.Proofs.Label

namespace RightLinear

variable {left right : List String} {separator : String} {used : List Char} {i j : Nat}

theorem mem_codes_iff (h : 0x2500 + j ≤ 0xd7ff) :
    0x2500 + j ∈ used.map Char.toNat ↔ Char.ofNat (0x2500 + j) ∈ used := by
  rw [List.mem_map]
  constructor
  case mp  => exact fun ⟨c, hc, he⟩ => he ▸ c.ofNat_toNat.symm ▸ hc
  case mpr => exact fun hc => ⟨_, hc, toNat_code h⟩

namespace FirstUnused

variable (h : FirstUnused used i)
include h

theorem reaches (hj : j ≤ i) :
    StateTransition.Reaches (nextCode used) 0x2500 (0x2500 + j) := by
  induction j
  case zero       => exact .refl
  case succ j hi  =>
    have hm : 0x2500 + j ∈ used.map Char.toNat :=
      (mem_codes_iff (by have := h.bound; omega)).mpr (h.earlier j hj)
    exact (hi (Nat.le_of_succ_le hj)).tail (if_pos hm)

theorem mem_eval : 0x2500 + i ∈ StateTransition.eval (nextCode used) 0x2500 :=
  StateTransition.mem_eval.mpr
    ⟨h.reaches (Nat.le_refl i), if_neg fun hm => h.unused ((mem_codes_iff h.bound).mp hm)⟩

end FirstUnused

-- The separator, where the search for an unused code goes on for as long as it takes.
def searchSeparator (left right : List String) : Part Char :=
  if joinsApart left right "_" then
    .some '_'
  else
    let used := ((left ++ right).flatMap (·.toList)).eraseDups
    match separators.find? (· ∉ used) with
    | some c => .some c
    | none => (StateTransition.eval (nextCode used) 0x2500).map Char.ofNat

theorem exists_mem_searchSeparator (h : LeavesCode (left ++ right)) :
    ∃ c ∈ searchSeparator left right, pairSeparator left right = .singleton c := by
  simp only [searchSeparator, pairSeparator]
  split
  case isTrue  => exact ⟨'_', Part.mem_some _, rfl⟩
  case isFalse =>
    obtain ⟨c, hl, hu, hc⟩ := h
    have hn : c ∉ ((left ++ right).flatMap (·.toList)).eraseDups := by
      simpa only [List.mem_eraseDups, List.mem_flatMap, not_exists, not_and] using hc
    obtain ⟨i, hi, he⟩ := exists_firstUnused hl hu hn
    refine ⟨_, ?_, rfl⟩
    cases separators.find? _
    case some c => exact Part.mem_some c
    case none   => exact (Part.mem_map_iff _).mpr ⟨_, hi.mem_eval, he.symm⟩

theorem joinsApart_iff_injOn (hl : left.Nodup) (hr : right.Nodup) :
    joinsApart left right separator = true ↔
      Set.InjOn (joined separator) {p | p.1 ∈ left ∧ p.2 ∈ right} := by
  refine ⟨joined_injOn_of_joinsApart, fun h => joinsApart_iff.mpr ?_⟩
  refine (hl.product hr).map_on fun p hp q hq he => h ?_ ?_ he
  · exact List.mem_product.mp hp
  · exact List.mem_product.mp hq

-- The search has no bound, but as long as the labels leave some code free, it ends with a character
-- that tells all pairs of labels apart.
theorem pairSeparator_apart (hl : left.Nodup) (hr : right.Nodup)
    (h : LeavesCode (left ++ right)) : ∃ c, c ∈ searchSeparator left right ∧
      pairSeparator left right = .singleton c ∧
      Set.InjOn (joined (.singleton c)) {p | p.1 ∈ left ∧ p.2 ∈ right} ∧
      (c = '_' ↔ Set.InjOn (joined "_") {p | p.1 ∈ left ∧ p.2 ∈ right}) := by
  have ⟨c, hc, he⟩ := exists_mem_searchSeparator h
  have hi := pairSeparator_injOn h
  rw [he] at hi
  refine ⟨c, hc, he, hi, ?apart, ?underscore⟩
  case apart      =>
    intro hu
    rw [hu] at hi
    exact hi
  case underscore =>
    intro hj
    have hs : pairSeparator left right = "_" := if_pos ((joinsApart_iff_injOn hl hr).mpr hj)
    have hu : String.singleton c = .singleton '_' := he.symm.trans hs
    simpa using congrArg String.toList hu

-- Two pairs are joined alike by an underscore, and all the other separators are used up.
theorem pairSeparator_apart_crowded : ["", "_", "|#~:+^─"].Nodup ∧ ["_", ""].Nodup ∧
    LeavesCode (["", "_", "|#~:+^─"] ++ ["_", ""]) ∧
    '━' ∈ searchSeparator ["", "_", "|#~:+^─"] ["_", ""] ∧
    ¬Set.InjOn (joined "_") {p | p.1 ∈ ["", "_", "|#~:+^─"] ∧ p.2 ∈ ["_", ""]} := by
  have hl : ["", "_", "|#~:+^─"].Nodup := by decide +kernel
  have hr : ["_", ""].Nodup := by decide +kernel
  have h : LeavesCode (["", "_", "|#~:+^─"] ++ ["_", ""]) :=
    ⟨'━', by decide +kernel, by decide +kernel, by decide +kernel⟩
  have ⟨c, hc, he, _, hu⟩ := pairSeparator_apart hl hr h
  have hs : pairSeparator ["", "_", "|#~:+^─"] ["_", ""] = .singleton '━' := by decide +kernel
  have hc' : c = '━' := by simpa using congrArg String.toList (he.symm.trans hs)
  exact ⟨hl, hr, h, hc' ▸ hc, fun hj => by simpa [hc'] using hu.mpr hj⟩

end RightLinear
