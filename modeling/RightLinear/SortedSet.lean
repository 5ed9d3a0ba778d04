import RightLinear.Key

namespace RightLinear

-- A set is held as its strictly increasing list, so every set has one value.
structure SortedSet (κ : Type) [Key κ] where
  toList : List κ
  sorted : toList.Pairwise (· < ·)

-- Sets of labels, in the order of code points.
abbrev Labels := SortedSet String

namespace SortedSet

variable {κ τ : Type} [Key κ] [Key τ]

instance : Membership κ (SortedSet κ) where
  mem ls s := s ∈ ls.toList

instance : DecidableEq (SortedSet κ) := fun l₁ l₂ =>
  decidable_of_iff (l₁.toList = l₂.toList)
    ⟨fun h => by cases l₁; cases l₂; simp_all, congrArg toList⟩

instance (s : κ) (ls : SortedSet κ) : Decidable (s ∈ ls) :=
  inferInstanceAs (Decidable (s ∈ ls.toList))

@[simp]
theorem mem_toList {s : κ} {ls : SortedSet κ} : s ∈ ls.toList ↔ s ∈ ls :=
  Iff.rfl

theorem nodup_toList (ls : SortedSet κ) : ls.toList.Nodup :=
  ls.sorted.imp fun {a b} (h : a < b) (e : a = b) => Key.irrefl b (e ▸ h)

-- A strictly increasing list is determined by its members.
@[ext]
theorem ext {l₁ l₂ : SortedSet κ} (h : ∀ s, s ∈ l₁ ↔ s ∈ l₂) : l₁ = l₂ := by
  have hp : l₁.toList.Perm l₂.toList :=
    (List.perm_ext_iff_of_nodup l₁.nodup_toList l₂.nodup_toList).mpr h
  have he : l₁.toList = l₂.toList :=
    hp.eq_of_pairwise (fun _ _ _ _ h₁ h₂ => absurd (Key.trans _ _ _ h₁ h₂) (Key.irrefl _))
      l₁.sorted l₂.sorted
  cases l₁; cases l₂; simp_all

def empty : SortedSet κ where
  toList := []
  sorted := .nil

instance : EmptyCollection (SortedSet κ) := ⟨empty⟩

instance : Inhabited (SortedSet κ) := ⟨∅⟩

@[simp]
theorem toList_empty : (∅ : SortedSet κ).toList = [] :=
  rfl

@[simp]
theorem not_mem_empty {s : κ} : s ∉ (∅ : SortedSet κ) := by
  simp [← mem_toList]

-- The place of a member in an increasing list; one that is already there is not repeated.
def place (s : κ) : List κ → List κ
  | [] => [s]
  | t :: ts => if s < t then s :: t :: ts else if s = t then t :: ts else t :: place s ts

@[simp]
theorem mem_place {s t : κ} {ts : List κ} : s ∈ place t ts ↔ s = t ∨ s ∈ ts := by
  induction ts
  case nil          => simp [place]
  case cons u us ih =>
    rw [place]
    split
    case isTrue  => simp
    case isFalse =>
      split
      case isTrue  => simp_all
      case isFalse =>
        simp only [List.mem_cons, ih]
        exact or_left_comm

theorem place_sorted {s : κ} {ts : List κ} (h : ts.Pairwise (· < ·)) :
    (place s ts).Pairwise (· < ·) := by
  induction ts
  case nil          => simp [place]
  case cons t ts ih =>
    rw [place]
    have ⟨ht, hts⟩ := List.pairwise_cons.mp h
    split
    case isTrue hlt  =>
      refine .cons (fun u hu => ?_) h
      exact (List.mem_cons.mp hu).elim (· ▸ hlt) (Key.trans _ _ _ hlt <| ht u ·)
    case isFalse hlt =>
      split
      case isTrue      => exact h
      case isFalse heq =>
        have hgt : t < s := (Key.total s t).elim (absurd · hlt) (·.elim (absurd · heq) id)
        exact .cons (fun u hu => (mem_place.mp hu).elim (· ▸ hgt) (ht u)) (ih hts)

def insert (ls : SortedSet κ) (s : κ) : SortedSet κ where
  toList := place s ls.toList
  sorted := place_sorted ls.sorted

@[simp]
theorem mem_insert {s t : κ} {ls : SortedSet κ} : s ∈ ls.insert t ↔ s = t ∨ s ∈ ls :=
  mem_place

theorem insert_comm {s t : κ} {ls : SortedSet κ} :
    (ls.insert s).insert t = (ls.insert t).insert s := by
  ext u
  simp [or_left_comm]

theorem insert_insert {s : κ} {ls : SortedSet κ} : (ls.insert s).insert s = ls.insert s := by
  ext t
  simp

def ofList (l : List κ) : SortedSet κ :=
  l.foldr (fun s ls => ls.insert s) ∅

@[simp]
theorem mem_ofList {s : κ} {l : List κ} : s ∈ ofList l ↔ s ∈ l := by
  induction l
  case nil          => simp [ofList]
  case cons t ts ih => simpa [ofList] using or_congr_right ih

@[simp]
theorem ofList_toList (ls : SortedSet κ) : ofList ls.toList = ls := by
  ext; simp

def singleton (s : κ) : SortedSet κ :=
  (∅ : SortedSet κ).insert s

@[simp]
theorem mem_singleton {s t : κ} : s ∈ singleton t ↔ s = t := by
  simp [singleton]

def union (l₁ l₂ : SortedSet κ) : SortedSet κ :=
  l₁.toList.foldr (fun s ls => ls.insert s) l₂

instance : Union (SortedSet κ) := ⟨union⟩

@[simp]
theorem mem_union {s : κ} {l₁ l₂ : SortedSet κ} : s ∈ l₁ ∪ l₂ ↔ s ∈ l₁ ∨ s ∈ l₂ := by
  have key (l : List κ) :
      s ∈ l.foldr (fun s (ls : SortedSet κ) => ls.insert s) l₂ ↔ s ∈ l ∨ s ∈ l₂ := by
    induction l
    case nil          => simp
    case cons t ts ih => simp [ih, or_assoc]
  exact key l₁.toList

def unionAll (sets : List (SortedSet κ)) : SortedSet κ :=
  sets.foldr (· ∪ ·) ∅

@[simp]
theorem mem_unionAll {s : κ} {sets : List (SortedSet κ)} :
    s ∈ unionAll sets ↔ ∃ ls ∈ sets, s ∈ ls := by
  induction sets
  case nil          => simp [unionAll]
  case cons l ls ih => simpa [unionAll] using or_congr_right ih

def filter (p : κ → Bool) (ls : SortedSet κ) : SortedSet κ where
  toList := ls.toList.filter p
  sorted := ls.sorted.filter p

@[simp]
theorem mem_filter {s : κ} {p : κ → Bool} {ls : SortedSet κ} :
    s ∈ ls.filter p ↔ s ∈ ls ∧ p s = true :=
  List.mem_filter

def diff (l₁ l₂ : SortedSet κ) : SortedSet κ :=
  l₁.filter (· ∉ l₂)

instance : SDiff (SortedSet κ) := ⟨diff⟩

@[simp]
theorem mem_diff {s : κ} {l₁ l₂ : SortedSet κ} : s ∈ l₁ \ l₂ ↔ s ∈ l₁ ∧ s ∉ l₂ := by
  show s ∈ diff l₁ l₂ ↔ _
  simp [diff]

def inter (l₁ l₂ : SortedSet κ) : SortedSet κ :=
  l₁.filter (· ∈ l₂)

instance : Inter (SortedSet κ) := ⟨inter⟩

@[simp]
theorem mem_inter {s : κ} {l₁ l₂ : SortedSet κ} : s ∈ l₁ ∩ l₂ ↔ s ∈ l₁ ∧ s ∈ l₂ := by
  show s ∈ inter l₁ l₂ ↔ _
  simp [inter]

def image (f : κ → τ) (ls : SortedSet κ) : SortedSet τ :=
  ofList (ls.toList.map f)

@[simp]
theorem mem_image {s : τ} {f : κ → τ} {ls : SortedSet κ} :
    s ∈ ls.image f ↔ ∃ t ∈ ls, f t = s := by
  simp [image]

def size (ls : SortedSet κ) : Nat :=
  ls.toList.length

def isEmpty (ls : SortedSet κ) : Bool :=
  ls.toList.isEmpty

theorem isEmpty_iff {ls : SortedSet κ} : ls.isEmpty = true ↔ ls = ∅ := by
  constructor
  case mp  =>
    intro h
    ext s
    simp [← mem_toList, List.isEmpty_iff.mp h]
  case mpr =>
    rintro rfl
    rfl

theorem toList_ne_nil {ls : SortedSet κ} (h : ls ≠ ∅) : ls.toList ≠ [] :=
  fun he => h (isEmpty_iff.mp (List.isEmpty_iff.mpr he))

-- Two sets meet when they have a member in common.
def meets (l₁ l₂ : SortedSet κ) : Bool :=
  l₁.toList.any (· ∈ l₂)

theorem meets_iff {l₁ l₂ : SortedSet κ} : l₁.meets l₂ = true ↔ ∃ s, s ∈ l₁ ∧ s ∈ l₂ := by
  simp [meets]

end SortedSet
end RightLinear
