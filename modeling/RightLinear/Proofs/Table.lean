import Mathlib.Data.Set.Function
import RightLinear.NFA.Determinize

namespace RightLinear.Table

section

variable {ι κ α : Type} [Key κ] {l : List ι} {f : ι → κ} {g : ι → α} {i : ι} {k : κ}

theorem find?_ofList_map (hf : Set.InjOn f {i | i ∈ l}) (hi : i ∈ l) :
    (ofList (l.map fun i => (f i, g i))).find? (f i) = some (g i) := by
  rw [find?_ofList]
  induction l
  case nil => cases hi
  case cons j l ih =>
    rw [List.map_cons, lookup]
    split
    case isTrue he  => rw [hf hi (.head _) he]
    case isFalse he =>
      have hi : i ∈ l := (List.mem_cons.mp hi).resolve_left fun h => he (h ▸ rfl)
      exact ih (hf.mono fun _ => .tail _) hi

theorem find?_ofList_map_eq_none (h : ∀ i ∈ l, f i ≠ k) :
    (ofList (l.map fun i => (f i, g i))).find? k = none := by
  rw [find?_ofList, lookup_eq_none_iff]
  exact List.forall_mem_map.mpr h

theorem insert_insert {t : Table κ α} {a b : α} :
    (t.insert k a).insert k b = t.insert k b := by
  ext k' : 1
  by_cases h : k' = k <;> simp [h]

theorem insert_eq_self {t : Table κ α} {a : α} (h : t.find? k = some a) : t.insert k a = t := by
  ext k' : 1
  by_cases hk : k' = k <;> simp [hk, h]

theorem erase_insert {t : Table κ α} {a : α} : (t.insert k a).erase k = t.erase k := by
  ext k' : 1
  by_cases h : k' = k <;> simp [h]

theorem nodup_keys (t : Table κ α) : t.keys.Nodup :=
  t.keys_sorted.imp fun {a b} (h : a < b) (he : a = b) => Key.irrefl b (he ▸ h)

theorem mem_of_lookup_eq_some {es : List (κ × α)} {a : α} (h : lookup k es = some a) :
    (k, a) ∈ es := by
  induction es
  case nil => simp [lookup] at h
  case cons e es hi =>
    rw [lookup] at h
    split at h
    case isTrue hk  => exact Option.some.inj h ▸ hk ▸ .head _
    case isFalse hk => exact .tail _ (hi h)

-- Of entries that are put into a table those with distinct keys stay.
theorem find?_foldl_insert {es : List (κ × α)} {t : Table κ α} (hn : (es.map (·.1)).Nodup) :
    (es.foldl (fun t e => t.insert e.1 e.2) t).find? k = (lookup k es).or (t.find? k) := by
  induction es generalizing t
  case nil => rfl
  case cons e es hi =>
    have ⟨he, hn⟩ := List.nodup_cons.mp hn
    rw [List.foldl_cons, hi hn, find?_insert, lookup]
    split
    case isFalse    => rfl
    case isTrue hk  =>
      have hl : lookup k es = none :=
        lookup_eq_none_iff.mpr fun e' he' h => he (List.mem_map.mpr ⟨e', he', h.trans hk⟩)
      rw [hl, Option.none_or, Option.some_or]

end

section

variable {κ α : Type} [Key κ] {t : Table κ α} {k k' : κ} {f g : Option α → α}

-- Gives a key a new value, which may depend on the one it has.
def modify (t : Table κ α) (k : κ) (f : Option α → α) : Table κ α :=
  t.insert k (f (t.find? k))

theorem find?_modify : (t.modify k f).find? k' =
    if k' = k then some (f (t.find? k)) else t.find? k' :=
  find?_insert

-- Changes of values that commute may be made in any order.
theorem modify_comm (h : ∀ a, g (some (f a)) = f (some (g a))) :
    (t.modify k f).modify k' g = (t.modify k' g).modify k f := by
  ext l : 1
  simp only [find?_modify]
  by_cases hk : k' = k
  case pos => by_cases hl : l = k <;> simp [hk, hl, h]
  case neg =>
    rw [if_neg hk, if_neg (Ne.symm hk)]
    by_cases hl : l = k
    case pos => simp [hl, Ne.symm hk]
    case neg => simp [hl]

theorem modify_modify (h : ∀ a, f (some (f a)) = f a) :
    (t.modify k f).modify k f = t.modify k f := by
  ext l : 1
  simp only [find?_modify, if_pos, h]
  split <;> rfl

end

section

variable {ι κ α : Type} [Key κ] {l : List ι} {f : ι → κ} {t : Table κ α} {es : List (κ × α)}
  {k k' : κ} {a : α}

theorem not_mem_keys_empty : k ∉ (∅ : Table κ α).keys := by
  simp [mem_keys_iff]

theorem mem_keys_insert : k' ∈ (t.insert k a).keys ↔ k' = k ∨ k' ∈ t.keys := by
  simp only [mem_keys_iff, find?_insert]
  by_cases h : k' = k <;> simp [h]

theorem length_keys_insert :
    (t.insert k a).keys.length = t.keys.length + if k ∈ t.keys then 0 else 1 := by
  split
  case isTrue h  =>
    exact ((List.perm_ext_iff_of_nodup (nodup_keys _) (nodup_keys t)).mpr fun k' =>
      mem_keys_insert.trans (or_iff_right_of_imp fun he => he ▸ h)).length_eq
  case isFalse h =>
    have hn : (k :: t.keys).Nodup := List.nodup_cons.mpr ⟨h, nodup_keys t⟩
    exact ((List.perm_ext_iff_of_nodup (nodup_keys _) hn).mpr fun k' =>
      mem_keys_insert.trans List.mem_cons.symm).length_eq

theorem mem_keys_ofList : k ∈ (ofList es).keys ↔ ∃ e ∈ es, e.1 = k := by
  induction es
  case nil          => exact iff_of_false not_mem_keys_empty (by simp)
  case cons e es hi =>
    simp only [List.mem_cons, exists_eq_or_imp, ← hi]
    exact mem_keys_insert.trans (or_congr_left eq_comm)

-- The values that are put in may depend on what is there.
theorem mem_keys_foldl_insert {g : Table κ α → ι → α} :
    k ∈ (l.foldl (fun t i => t.insert (f i) (g t i)) t).keys ↔ (∃ i ∈ l, f i = k) ∨ k ∈ t.keys := by
  induction l generalizing t
  case nil         => simp
  case cons i l hi =>
    simp only [List.foldl_cons, hi, mem_keys_insert, List.mem_cons, exists_eq_or_imp, or_assoc,
      eq_comm (a := k), or_left_comm]

end

variable {t₀ : Table String (Table String String)} {arrows : List (Arrow String)} {r : Arrow String}
  {s a t : String}

def next (t₀ : Table String (Table String String)) (s a : String) : Option String :=
  ((t₀.find? s).getD ∅).find? a

def addArrow (t₀ : Table String (Table String String)) (r : Arrow String) :
    Table String (Table String String) :=
  t₀.insert r.source (((t₀.find? r.source).getD ∅).insert r.symbol r.target)

theorem ofArrows_eq : ofArrows arrows = arrows.foldl addArrow ∅ :=
  rfl

theorem next_addArrow : (t₀.addArrow r).next s a =
    if s = r.source ∧ a = r.symbol then some r.target else t₀.next s a := by
  by_cases hs : s = r.source
  case neg => simp [next, addArrow, hs]
  case pos => by_cases ha : a = r.symbol <;> simp [next, addArrow, hs, ha]

theorem next_foldl_addArrow_of_not_mem
    (h : ∀ r ∈ arrows, ¬(r.source = s ∧ r.symbol = a)) :
    (arrows.foldl addArrow t₀).next s a = t₀.next s a := by
  induction arrows generalizing t₀
  case nil => rfl
  case cons r arrows hi =>
    have ⟨hr, h⟩ := List.forall_mem_cons.mp h
    rw [List.foldl_cons, hi h, next_addArrow, if_neg fun ⟨hs, ha⟩ => hr ⟨hs.symm, ha.symm⟩]

theorem mem_of_next_foldl_addArrow (h : (arrows.foldl addArrow t₀).next s a = some t) :
    ⟨s, a, t⟩ ∈ arrows ∨ t₀.next s a = some t := by
  induction arrows generalizing t₀
  case nil => exact .inr h
  case cons r arrows hi =>
    cases hi h
    case inl h => exact .inl (.tail _ h)
    case inr h =>
      rw [next_addArrow] at h
      split at h
      case isTrue hr  => exact .inl (by simp [hr.left, hr.right, ← Option.some.inj h])
      case isFalse hr => exact .inr h

theorem mem_of_next_ofArrows (h : (ofArrows arrows).next s a = some t) : ⟨s, a, t⟩ ∈ arrows := by
  rw [ofArrows_eq] at h
  cases mem_of_next_foldl_addArrow h
  case inl h => exact h
  case inr h => simp [next] at h

-- Arrows that agree on their targets are kept one and all.
theorem next_ofArrows_iff
    (hf : ∀ r ∈ arrows, ∀ r' ∈ arrows, r.source = r'.source → r.symbol = r'.symbol →
      r.target = r'.target) :
    (ofArrows arrows).next s a = some t ↔ ⟨s, a, t⟩ ∈ arrows := by
  constructor
  case mp  => exact mem_of_next_ofArrows
  case mpr =>
    rw [ofArrows_eq]
    generalize (∅ : Table String (Table String String)) = t₀
    intro h
    induction arrows generalizing t₀
    case nil => simp at h
    case cons r arrows hi =>
      have hf' : ∀ r ∈ arrows, ∀ r' ∈ arrows, r.source = r'.source → r.symbol = r'.symbol →
          r.target = r'.target :=
        fun r hr r' hr' => hf r (.tail _ hr) r' (.tail _ hr')
      by_cases ht : ⟨s, a, t⟩ ∈ arrows
      · exact hi hf' _ ht
      · have hr : r = ⟨s, a, t⟩ := ((List.mem_cons.mp h).resolve_right ht).symm
        -- no later arrow takes the place of this one
        have hn : ∀ r ∈ arrows, ¬(r.source = s ∧ r.symbol = a) := by
          rintro ⟨s', a', t'⟩ hm ⟨rfl, rfl⟩
          have he : t' = t := hf _ (.tail _ hm) _ h rfl rfl
          exact ht (he ▸ hm)
        rw [List.foldl_cons, next_foldl_addArrow_of_not_mem hn, next_addArrow, hr]
        simp

theorem mem_keys_ofArrows : s ∈ (ofArrows arrows).keys ↔ ∃ r ∈ arrows, r.source = s :=
  mem_keys_foldl_insert.trans (or_iff_left not_mem_keys_empty)

end RightLinear.Table
