namespace RightLinear

-- The words of a given length; the last symbol changes first.
def wordsOfLength (symbols : List String) : Nat → List (List String)
  | 0 => [[]]
  | n + 1 => symbols.flatMap fun a => (wordsOfLength symbols n).map (a :: ·)

-- The words of at most the given length, by length.
def wordsUpTo (symbols : List String) (bound : Nat) : List (List String) :=
  (List.range (bound + 1)).flatMap (wordsOfLength symbols)

-- The symbols of a word that is written as a text of one-character symbols.
def symbolsOf (text : String) : List String :=
  text.toList.map String.singleton

theorem mem_wordsOfLength {symbols : List String} {n : Nat} {w : List String} :
    w ∈ wordsOfLength symbols n ↔ w.length = n ∧ ∀ a ∈ w, a ∈ symbols := by
  induction n generalizing w
  case zero      => cases w <;> simp [wordsOfLength]
  case succ n ih =>
    cases w
    case nil      => simp [wordsOfLength]
    case cons a w =>
      simp only [wordsOfLength, List.mem_flatMap, List.mem_map, List.cons.injEq, ih]
      constructor
      case mp  =>
        rintro ⟨b, hb, v, ⟨rfl, hv⟩, rfl, rfl⟩
        simpa using ⟨hb, hv⟩
      case mpr =>
        rintro ⟨hl, hs⟩
        simp_all

theorem mem_wordsUpTo {symbols : List String} {bound : Nat} {w : List String} :
    w ∈ wordsUpTo symbols bound ↔ w.length ≤ bound ∧ ∀ a ∈ w, a ∈ symbols := by
  simp only [wordsUpTo, List.mem_flatMap, List.mem_range, mem_wordsOfLength, Nat.lt_succ_iff]
  constructor
  case mp  =>
    rintro ⟨_, hn, rfl, hw⟩
    exact ⟨hn, hw⟩
  case mpr => exact fun ⟨hn, hw⟩ => ⟨_, hn, rfl, hw⟩

end RightLinear
