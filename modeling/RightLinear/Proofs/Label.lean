import Mathlib.Data.List.Nodup
import Mathlib.Data.List.Perm.Subperm
import Mathlib.Data.List.ProdSigma
import Mathlib.Data.Set.Function
import RightLinear.Label

namespace RightLinear

variable {left right labels : List String} {separator : String}

-- A list without repetitions has an entry that a shorter list lacks.
theorem exists_not_mem_of_length_lt {α : Type} {l m : List α} (hl : l.Nodup)
    (h : m.length < l.length) : ∃ a ∈ l, a ∉ m := by
  by_contra! hn
  exact absurd (hl.length_le_of_subset hn) (Nat.not_le.mpr h)

namespace SortedSet

variable {κ : Type} [Key κ] {l : List κ}

theorem perm_toList_ofList (h : l.Nodup) : (ofList l).toList.Perm l :=
  (List.perm_ext_iff_of_nodup (nodup_toList _) h).mpr fun s => by simp

theorem size_ofList_iff : (ofList l).size = l.length ↔ l.Nodup := by
  constructor
  case mpr => exact fun h => (perm_toList_ofList h).length_eq
  case mp =>
    intro h
    have hs : List.Subperm (ofList l).toList l :=
      List.Nodup.subperm (nodup_toList _) fun s => by simp
    exact (hs.perm_of_length_le (Nat.le_of_eq h.symm)).nodup_iff.mp (nodup_toList _)

end SortedSet

def joined (separator : String) (p : String × String) : String :=
  p.1 ++ separator ++ p.2

theorem joinsApart_iff : joinsApart left right separator = true ↔
    ((left ×ˢ right).map (joined separator)).Nodup := by
  have hm : (left.flatMap fun a => right.map fun b => a ++ separator ++ b) =
      (left ×ˢ right).map (joined separator) := by
    simp only [SProd.sprod, List.product, List.map_flatMap, List.map_map, Function.comp_def, joined]
  rw [← SortedSet.size_ofList_iff, List.length_map, List.length_product, joinsApart, hm, beq_iff_eq]

theorem joined_injOn_of_joinsApart (h : joinsApart left right separator = true) :
    Set.InjOn (joined separator) {p | p.1 ∈ left ∧ p.2 ∈ right} := fun _ hp _ hq =>
  List.inj_on_of_nodup_map (joinsApart_iff.mp h) (List.mem_product.mpr hp) (List.mem_product.mpr hq)

-- A character that no label has splits a joined text in one way.
theorem joined_injOn_of_not_mem {c : Char} (h : ∀ s ∈ left ++ right, c ∉ s.toList) :
    Set.InjOn (joined (.singleton c)) {p | p.1 ∈ left ∧ p.2 ∈ right} := by
  intro p hp q hq he
  have he := congrArg String.toList he
  simp only [joined, String.toList_append, String.toList_singleton, List.append_assoc,
    List.singleton_append] at he
  have hl := h p.1 (List.mem_append_left _ hp.left)
  have hr := h p.2 (List.mem_append_right _ hp.right)
  have ⟨h₁, _, h₂⟩ := (List.append_cons_inj_of_notMem hl hr).mp he
  exact Prod.ext (String.toList_injective h₁) (String.toList_injective h₂)

-- Some character that can become a separator is in none of the labels.
def LeavesCode (labels : List String) : Prop :=
  ∃ c : Char, 0x2500 ≤ c.toNat ∧ c.toNat ≤ 0xd7ff ∧ ∀ s ∈ labels, c ∉ s.toList

theorem toNat_code {i : Nat} (h : 0x2500 + i ≤ 0xd7ff) :
    (Char.ofNat (0x2500 + i)).toNat = 0x2500 + i := by
  have hv : (0x2500 + i).isValidChar := .inl (by omega)
  rw [Char.ofNat, dif_pos hv]
  rfl

-- The first code that can become a separator and is not used, counted from U+2500.
structure FirstUnused (used : List Char) (i : Nat) : Prop where
  bound   : 0x2500 + i ≤ 0xd7ff
  unused  : Char.ofNat (0x2500 + i) ∉ used
  earlier : ∀ j < i, Char.ofNat (0x2500 + j) ∈ used

-- Either the code that is left is among the first ones, or these are more than there are used
-- characters.
theorem exists_unused {used : List Char} {c : Char} (hl : 0x2500 ≤ c.toNat)
    (hu : c.toNat ≤ 0xd7ff) (hc : c ∉ used) :
    ∃ i < used.length + 1, 0x2500 + i ≤ c.toNat ∧ Char.ofNat (0x2500 + i) ∉ used := by
  by_cases h : c.toNat - 0x2500 < used.length + 1
  case pos =>
    refine ⟨c.toNat - 0x2500, h, by omega, ?_⟩
    rwa [Nat.add_sub_cancel' hl, Char.ofNat_toNat]
  case neg =>
    let codes := (List.range (used.length + 1)).map fun i => Char.ofNat (0x2500 + i)
    have hn : codes.Nodup := by
      refine List.Nodup.map_on (fun i hi j hj he => ?_) List.nodup_range
      have hi := List.mem_range.mp hi
      have hj := List.mem_range.mp hj
      have he := congrArg Char.toNat he
      rw [toNat_code (by omega), toNat_code (by omega)] at he
      omega
    have ⟨b, hb, hbu⟩ := exists_not_mem_of_length_lt (m := used) hn (by simp [codes])
    have ⟨i, hi, he⟩ := List.mem_map.mp hb
    have hi := List.mem_range.mp hi
    exact ⟨i, hi, by omega, he ▸ hbu⟩

theorem exists_firstUnused {used : List Char} {c : Char} (hl : 0x2500 ≤ c.toNat)
    (hu : c.toNat ≤ 0xd7ff) (hc : c ∉ used) :
    ∃ i, FirstUnused used i ∧ unusedCode used = Char.ofNat (0x2500 + i) := by
  have ⟨k, hk, hkc, hku⟩ := exists_unused hl hu hc
  rw [unusedCode, List.find?_map]
  cases hf : (List.range (used.length + 1)).find? _
  case none   => simpa [hku] using List.find?_eq_none.mp hf k (List.mem_range.mpr hk)
  case some i =>
    have ⟨hiu, _, he⟩ := List.find?_range_eq_some.mp hf
    have he : ∀ j < i, Char.ofNat (0x2500 + j) ∈ used := by simpa using he
    have hik : i ≤ k := Nat.le_of_not_lt fun h => hku (he k h)
    exact ⟨i, ⟨by omega, by simpa using hiu, he⟩, rfl⟩

theorem unusedCode_not_mem {used : List Char} {c : Char} (hl : 0x2500 ≤ c.toNat)
    (hu : c.toNat ≤ 0xd7ff) (hc : c ∉ used) : unusedCode used ∉ used := by
  have ⟨_, hi, he⟩ := exists_firstUnused hl hu hc
  exact he ▸ hi.unused

theorem pairSeparator_injOn (h : LeavesCode (left ++ right)) :
    Set.InjOn (joined (pairSeparator left right)) {p | p.1 ∈ left ∧ p.2 ∈ right} := by
  rw [pairSeparator]
  split
  case isTrue hj  => exact joined_injOn_of_joinsApart hj
  case isFalse hj =>
    have ⟨c, hl, hu, hc⟩ := h
    let used := ((left ++ right).flatMap (·.toList)).eraseDups
    have mem_used {c : Char} : c ∈ used ↔ ∃ s ∈ left ++ right, c ∈ s.toList := by
      simp only [used, List.mem_eraseDups, List.mem_flatMap]
    have hn : (separators.find? (· ∉ used)).getD (unusedCode used) ∉ used := by
      cases hf : separators.find? (· ∉ used)
      case none   =>
        have hc : c ∉ used := fun h => have ⟨s, hs, hm⟩ := mem_used.mp h; hc s hs hm
        exact unusedCode_not_mem hl hu hc
      case some d => simpa using List.find?_some hf
    exact joined_injOn_of_not_mem fun s hs hm => hn (mem_used.mpr ⟨s, hs, hm⟩)

theorem toString_nat_injective {m n : Nat} (h : toString m = toString n) : m = n := by
  have h := congrArg (Nat.ofDigitChars 10 ·.toList 0) h
  simpa [Nat.toString_eq_repr, Nat.toList_repr, Nat.ofDigitChars_ten_toDigits] using h

-- Numbers after a label, where zero is left out.
theorem numbered_injective {m n : Nat}
    (h : (if m = 0 then "" else toString m) = if n = 0 then "" else toString n) : m = n := by
  have ne_empty {n : Nat} : toString n ≠ "" := Nat.repr_ne_empty
  split at h <;> split at h
  case isTrue.isTrue hm hn => exact hm.trans hn.symm
  case isTrue.isFalse      => exact absurd h.symm ne_empty
  case isFalse.isTrue      => exact absurd h ne_empty
  case isFalse.isFalse     => exact toString_nat_injective h

theorem sinkLabel_injective {m n : Nat} (h : sinkLabel m = sinkLabel n) : m = n := by
  have tail {k : Nat} : sinkLabel k = "DEAD" ++ if k = 0 then "" else toString k := by
    rw [sinkLabel]
    split <;> simp
  rw [tail, tail, String.append_right_inj] at h
  exact numbered_injective h

-- A sink's label has no character that can become a separator.
theorem toNat_lt_of_mem_sinkLabel {k : Nat} {c : Char} (h : c ∈ (sinkLabel k).toList) :
    c.toNat < 0x2500 := by
  have ha : "DEAD".toList.all (·.toNat < 0x2500) = true := by decide +kernel
  have hd : ∀ c ∈ "DEAD".toList, c.toNat < 0x2500 := fun c hc =>
    of_decide_eq_true (List.all_eq_true.mp ha c hc)
  rw [sinkLabel] at h
  split at h
  case isTrue  => exact hd c h
  case isFalse =>
    rw [String.toList_append, Nat.toString_eq_repr, Nat.toList_repr] at h
    cases List.mem_append.mp h
    case inl h => exact hd c h
    case inr h =>
      have hc := Nat.isDigit_of_mem_toDigits (by decide) (by decide) h
      have ⟨_, hc⟩ : 48 ≤ c.val ∧ c.val ≤ 57 := by simpa [Char.isDigit] using hc
      have hc : c.toNat ≤ 57 := hc
      omega

variable {reserved a : String}

theorem letters_nodup : (letters reserved).Nodup := by
  have hn : ("ABCDEFGHIJKLMNOPQRSTUVWXYZ".toList.map String.singleton).Nodup := by decide +kernel
  exact hn.filter _

theorem letters_length_pos (reserved : String) : 0 < (letters reserved).length := by
  apply List.length_pos_of_mem (a := if reserved = "A" then "B" else "A")
  split
  case isTrue h  => subst h; decide +kernel
  case isFalse h =>
    refine List.mem_filter.mpr ⟨by decide +kernel, by simpa using Ne.symm h⟩

theorem ne_reserved_of_mem_letters (h : a ∈ letters reserved) : a ≠ reserved := by
  simpa using (List.mem_filter.mp h).right

theorem eq_singleton_of_mem_letters (h : a ∈ letters reserved) : ∃ c : Char, a = .singleton c := by
  have ⟨c, _, hc⟩ := List.mem_map.mp (List.mem_filter.mp h).left
  exact ⟨c, hc.symm⟩

-- The number of a readable label is that of its letter and that of its round.
theorem readable_eq (reserved : String) (k : Nat) :
    ∃ h : k % (letters reserved).length < (letters reserved).length,
      readable reserved k = (letters reserved)[k % (letters reserved).length] ++
        if k / (letters reserved).length = 0 then ""
        else toString (k / (letters reserved).length) := by
  have hp := letters_length_pos reserved
  refine ⟨Nat.mod_lt _ hp, ?_⟩
  simp only [readable, Nat.div_eq_zero_iff_lt hp, List.getD_eq_getElem?_getD,
    List.getElem?_eq_getElem (Nat.mod_lt _ hp), Option.getD_some]

theorem readable_injective {j k : Nat} (h : readable reserved j = readable reserved k) : j = k := by
  have ⟨hj, ej⟩ := readable_eq reserved j
  have ⟨hk, ek⟩ := readable_eq reserved k
  have ⟨c, hc⟩ := eq_singleton_of_mem_letters (List.getElem_mem hj)
  have ⟨d, hd⟩ := eq_singleton_of_mem_letters (List.getElem_mem hk)
  have h := congrArg String.toList (ej.symm.trans (h.trans ek))
  simp only [hc, hd, String.toList_append, String.toList_singleton, List.singleton_append,
    List.cons.injEq] at h
  have hm := letters_nodup.getElem_inj_iff.mp (hc.trans (h.left ▸ hd.symm))
  have hq := numbered_injective (String.toList_injective h.right)
  rw [← Nat.div_add_mod j, ← Nat.div_add_mod k, hm, hq]

theorem readable_ne_startLabel {k : Nat} : readable startLabel k ≠ startLabel := by
  intro h
  have ⟨hk, ek⟩ := readable_eq startLabel k
  have ⟨c, hc⟩ := eq_singleton_of_mem_letters (List.getElem_mem hk)
  have hn := ne_reserved_of_mem_letters (List.getElem_mem hk)
  have he := congrArg String.toList (ek.symm.trans h)
  simp only [hc, String.toList_append, String.toList_singleton, List.singleton_append] at he
  have ⟨hs, _⟩ := List.cons.inj (he.trans (show startLabel.toList = ['S'] from rfl))
  exact hn (hc.trans (hs ▸ rfl))

end RightLinear
