import RightLinear.Key

namespace RightLinear

-- A table is held as its entries in increasing order of keys. A key with an empty value, such as a
-- row without entries, is still a key.
structure Table (κ α : Type) [Key κ] where
  entries : List (κ × α)
  sorted : entries.Pairwise (·.1 < ·.1)

namespace Table

variable {κ α β : Type} [Key κ] {k k' : κ} {a : α}

def empty : Table κ α where
  entries := []
  sorted := .nil

instance : EmptyCollection (Table κ α) := ⟨empty⟩

instance : Inhabited (Table κ α) := ⟨∅⟩

instance [DecidableEq α] : DecidableEq (Table κ α) := fun t₁ t₂ =>
  decidable_of_iff (t₁.entries = t₂.entries) ⟨fun h => by cases t₁; cases t₂; simp_all, (· ▸ rfl)⟩

-- The value of a key among entries; the first one counts.
def lookup (k : κ) : List (κ × α) → Option α
  | [] => none
  | (k', a) :: es => if k = k' then some a else lookup k es

def find? (t : Table κ α) (k : κ) : Option α :=
  lookup k t.entries

def keys (t : Table κ α) : List κ :=
  t.entries.map (·.1)

def values (t : Table κ α) : List α :=
  t.entries.map (·.2)

def contains (t : Table κ α) (k : κ) : Bool :=
  (t.find? k).isSome

def isEmpty (t : Table κ α) : Bool :=
  t.entries.isEmpty

@[simp]
theorem find?_empty : (∅ : Table κ α).find? k = none :=
  rfl

theorem lookup_eq_none_iff {es : List (κ × α)} : lookup k es = none ↔ ∀ e ∈ es, e.1 ≠ k := by
  induction es
  case nil          => simp [lookup]
  case cons e es ih =>
    obtain ⟨k', a⟩ := e
    by_cases h : k = k'
    case pos => simp [lookup, h]
    case neg => simp [lookup, h, ih, Ne.symm h]

theorem lookup_eq_some_iff {es : List (κ × α)} (hs : es.Pairwise (·.1 < ·.1)) :
    lookup k es = some a ↔ (k, a) ∈ es := by
  induction es
  case nil          => simp [lookup]
  case cons e es ih =>
    obtain ⟨k', a'⟩ := e
    have ⟨hk, hes⟩ := List.pairwise_cons.mp hs
    by_cases h : k = k'
    case pos =>
      subst h
      have hn : (k, a) ∉ es := fun hm => Key.irrefl k (hk (k, a) hm)
      simp [lookup, hn, eq_comm]
    case neg => simp [lookup, h, ih hes]

theorem find?_eq_some_iff {t : Table κ α} : t.find? k = some a ↔ (k, a) ∈ t.entries :=
  lookup_eq_some_iff t.sorted

theorem mem_keys_iff {t : Table κ α} : k ∈ t.keys ↔ ∃ a, t.find? k = some a := by
  simp [keys, find?_eq_some_iff]

theorem contains_iff {t : Table κ α} : t.contains k = true ↔ k ∈ t.keys := by
  rw [mem_keys_iff, contains, Option.isSome_iff_exists]

theorem mem_values_iff {t : Table κ α} : a ∈ t.values ↔ ∃ k, t.find? k = some a := by
  simp [values, find?_eq_some_iff]

theorem keys_sorted (t : Table κ α) : t.keys.Pairwise (· < ·) :=
  List.pairwise_map.mpr t.sorted

-- Increasing entries are determined by their look-ups.
@[ext]
theorem ext {t₁ t₂ : Table κ α} (h : ∀ k, t₁.find? k = t₂.find? k) : t₁ = t₂ := by
  have nodup (t : Table κ α) : t.entries.Nodup :=
    t.sorted.imp fun {e₁ e₂} (h : e₁.1 < e₂.1) (e : e₁ = e₂) => Key.irrefl e₂.1 (e ▸ h)
  have hp : t₁.entries.Perm t₂.entries :=
    (List.perm_ext_iff_of_nodup (nodup t₁) (nodup t₂)).mpr fun (k, a) => by
      rw [← find?_eq_some_iff, ← find?_eq_some_iff, h]
  have he : t₁.entries = t₂.entries :=
    hp.eq_of_pairwise (fun _ _ _ _ h₁ h₂ => absurd (Key.trans _ _ _ h₁ h₂) (Key.irrefl _))
      t₁.sorted t₂.sorted
  cases t₁; cases t₂; simp_all

-- The place of an entry among increasing ones; it takes the place of an entry with the same key.
def place (k : κ) (a : α) : List (κ × α) → List (κ × α)
  | [] => [(k, a)]
  | (k', a') :: es =>
    if k < k' then (k, a) :: (k', a') :: es
    else if k = k' then (k, a) :: es
    else (k', a') :: place k a es

theorem fst_of_mem_place {e : κ × α} {es : List (κ × α)} (h : e ∈ place k a es) :
    e.1 = k ∨ e ∈ es := by
  induction es
  case nil           => exact .inl (by simp_all [place])
  case cons e' es ih =>
    obtain ⟨k', a'⟩ := e'
    rw [place] at h
    split at h
    case isTrue  => exact (List.mem_cons.mp h).imp_left (congrArg Prod.fst)
    case isFalse =>
      split at h
      case isTrue  => exact (List.mem_cons.mp h).imp (congrArg Prod.fst) (.tail _)
      case isFalse =>
        cases h
        case head   => exact .inr (.head _)
        case tail h => exact (ih h).imp_right (.tail _)

theorem place_sorted {es : List (κ × α)} (h : es.Pairwise (·.1 < ·.1)) :
    (place k a es).Pairwise (·.1 < ·.1) := by
  induction es
  case nil          => simp [place]
  case cons e es ih =>
    obtain ⟨k', a'⟩ := e
    rw [place]
    have ⟨hk, hes⟩ := List.pairwise_cons.mp h
    split
    case isTrue hlt  =>
      refine .cons (fun e he => ?_) h
      exact (List.mem_cons.mp he).elim (· ▸ hlt) (Key.trans _ _ _ hlt <| hk e ·)
    case isFalse hlt =>
      split
      case isTrue heq  => exact .cons (fun e he => heq ▸ hk e he) hes
      case isFalse heq =>
        have hgt : k' < k := (Key.total k k').elim (absurd · hlt) (·.elim (absurd · heq) id)
        exact .cons (fun e he => (fst_of_mem_place he).elim (fun h => h ▸ hgt) (hk e)) (ih hes)

theorem lookup_place {es : List (κ × α)} :
    lookup k' (place k a es) = if k' = k then some a else lookup k' es := by
  induction es
  case nil          => simp [place, lookup]
  case cons e es ih =>
    obtain ⟨k₁, a₁⟩ := e
    rw [place]
    split
    case isTrue  => simp [lookup]
    case isFalse =>
      split
      case isTrue hk  => by_cases h : k' = k₁ <;> simp [lookup, hk, h]
      case isFalse hk =>
        by_cases h : k' = k₁
        case pos => simp [lookup, h, Ne.symm hk]
        case neg => simp [lookup, h, ih]

def insert (t : Table κ α) (k : κ) (a : α) : Table κ α where
  entries := place k a t.entries
  sorted := place_sorted t.sorted

@[simp]
theorem find?_insert {t : Table κ α} :
    (t.insert k a).find? k' = if k' = k then some a else t.find? k' :=
  lookup_place

-- Of several entries with one key the first counts.
def ofList (es : List (κ × α)) : Table κ α :=
  es.foldr (fun e t => t.insert e.1 e.2) ∅

@[simp]
theorem find?_ofList {es : List (κ × α)} : (ofList es).find? k = lookup k es := by
  induction es
  case nil          => rfl
  case cons e es ih =>
    obtain ⟨k', a'⟩ := e
    simp only [ofList, List.foldr_cons, find?_insert, lookup]
    split
    case isTrue  => rfl
    case isFalse => exact ih

def filter (p : κ → Bool) (t : Table κ α) : Table κ α where
  entries := t.entries.filter fun e => p e.1
  sorted := t.sorted.filter _

@[simp]
theorem find?_filter {p : κ → Bool} {t : Table κ α} :
    (t.filter p).find? k = if p k then t.find? k else none := by
  apply Option.ext
  intro a
  rw [find?_eq_some_iff, filter, List.mem_filter]
  split <;> simp_all [find?_eq_some_iff]

def erase (t : Table κ α) (k : κ) : Table κ α :=
  t.filter (· ≠ k)

@[simp]
theorem find?_erase {t : Table κ α} :
    (t.erase k).find? k' = if k' = k then none else t.find? k' := by
  rw [erase, find?_filter]
  by_cases h : k' = k <;> simp [h]

def map (f : κ → α → β) (t : Table κ α) : Table κ β where
  entries := t.entries.map fun e => (e.1, f e.1 e.2)
  sorted := List.pairwise_map.mpr t.sorted

@[simp]
theorem find?_map {f : κ → α → β} {t : Table κ α} :
    (t.map f).find? k = (t.find? k).map (f k) := by
  show lookup k (t.entries.map _) = (lookup k t.entries).map (f k)
  induction t.entries
  case nil          => rfl
  case cons e es ih =>
    obtain ⟨k', a'⟩ := e
    by_cases h : k = k'
    case pos => simp [lookup, h]
    case neg => simp [lookup, h, ih]

end Table
end RightLinear
