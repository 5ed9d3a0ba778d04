import Mathlib.Data.List.Forall2
import RightLinear.Proofs.Table
import RightLinear.Terminal.Session

namespace RightLinear.Terminal.Session

variable {t : Table String Grammar} {p : Int × Grammar} {ps qs : List (Int × Grammar)} {k : String}
  {s : Session} {keys : List String} {c : TestCase} {cases : List TestCase}

-- The grammars of some test cases, each with the number of its test case.
def numbered (cases : List TestCase) : List (Int × Grammar) :=
  cases.flatMap fun c => c.grammars.map (c.id, ·)

def put (t : Table String Grammar) (p : Int × Grammar) : Table String Grammar :=
  t.insert (grammarKey t p.1 p.2) p.2

def store (t : Table String Grammar) (ps : List (Int × Grammar)) : Table String Grammar :=
  ps.foldl put t

-- The keys under which some grammars are stored.
def storeKeys (t : Table String Grammar) : List (Int × Grammar) → List String
  | [] => []
  | p :: ps => grammarKey t p.1 p.2 :: storeKeys (put t p) ps

theorem store_append : store t (ps ++ qs) = store (store t ps) qs :=
  List.foldl_append

theorem storeKeys_append :
    storeKeys t (ps ++ qs) = storeKeys t ps ++ storeKeys (store t ps) qs := by
  induction ps generalizing t
  case nil         => rfl
  case cons p ps hi => exact congrArg _ hi

theorem length_storeKeys : (storeKeys t ps).length = ps.length := by
  induction ps generalizing t
  case nil         => rfl
  case cons p ps hi => exact congrArg (· + 1) hi

theorem find?_store_of_not_mem (h : k ∉ storeKeys t ps) : (store t ps).find? k = t.find? k := by
  induction ps generalizing t
  case nil => rfl
  case cons p ps hi =>
    have ⟨hk, h⟩ := not_or.mp (List.mem_cons.not.mp h)
    exact (hi h).trans (Table.find?_insert.trans (if_neg hk))

-- Neither the name of a grammar nor its name with the number is free.
def Taken (t : Table String Grammar) (p : Int × Grammar) : Prop :=
  p.2.name ∈ t.keys ∧ s!"{p.2.name}_{p.1}" ∈ t.keys

-- No grammar finds both keys taken when its turn comes.
def Room (t : Table String Grammar) : List (Int × Grammar) → Prop
  | [] => True
  | p :: ps => ¬Taken t p ∧ Room (put t p) ps

instance : Decidable (Taken t p) :=
  inferInstanceAs (Decidable (_ ∧ _))

instance decidableRoom (t : Table String Grammar) :
    (ps : List (Int × Grammar)) → Decidable (Room t ps)
  | [] => .isTrue trivial
  | p :: ps => @instDecidableAnd _ _ _ (decidableRoom (put t p) ps)

theorem grammarKey_mem_iff : grammarKey t p.1 p.2 ∈ t.keys ↔ Taken t p := by
  rw [grammarKey, Taken]
  split
  case isTrue h  => exact (and_iff_right (Table.contains_iff.mp h)).symm
  case isFalse h =>
    have hn := Table.contains_iff.not.mp h
    exact iff_of_false hn fun ht => hn ht.left

theorem length_keys_put :
    (put t p).keys.length = t.keys.length + if Taken t p then 0 else 1 := by
  simp only [put, Table.length_keys_insert, grammarKey_mem_iff]

theorem length_keys_store_le : (store t ps).keys.length ≤ t.keys.length + ps.length := by
  induction ps generalizing t
  case nil          => exact Nat.le_refl _
  case cons p ps hi =>
    have hp : (put t p).keys.length ≤ t.keys.length + 1 := by
      rw [length_keys_put]
      split <;> omega
    calc
      (store (put t p) ps).keys.length
      _ ≤ (put t p).keys.length + ps.length := hi
      _ ≤ t.keys.length + (ps.length + 1)   := by omega

-- A grammar that finds no room leaves the number of keys as it is, and no other makes up for it.
theorem length_keys_store_iff :
    (store t ps).keys.length = t.keys.length + ps.length ↔ Room t ps := by
  induction ps generalizing t
  case nil          => exact iff_of_true rfl trivial
  case cons p ps hi =>
    have hl : (put t p).keys.length = t.keys.length + if Taken t p then 0 else 1 := length_keys_put
    by_cases hp : Taken t p
    case pos =>
      have hs : (store (put t p) ps).keys.length ≤ (put t p).keys.length + ps.length :=
        length_keys_store_le
      rw [if_pos hp] at hl
      exact iff_of_false (fun he => by simp [store] at he hs; omega) fun h => h.left hp
    case neg =>
      rw [if_neg hp] at hl
      rw [Room, and_iff_right hp, ← hi, hl, List.length_cons, Nat.add_assoc, Nat.add_comm 1]
      rfl

namespace Room

theorem disjoint (h : Room t ps) : ∀ k ∈ storeKeys t ps, k ∉ t.keys := by
  induction ps generalizing t
  case nil          => exact nofun
  case cons p ps hi =>
    have ⟨hp, h⟩ := h
    refine List.forall_mem_cons.mpr ⟨grammarKey_mem_iff.not.mpr hp, fun k hk hm => ?_⟩
    exact hi h k hk (Table.mem_keys_insert.mpr (.inr hm))

theorem nodup (h : Room t ps) : (storeKeys t ps).Nodup := by
  induction ps generalizing t
  case nil          => exact .nil
  case cons p ps hi =>
    have ⟨_, h⟩ := h
    refine List.nodup_cons.mpr ⟨fun hm => ?_, hi h⟩
    exact h.disjoint _ hm (Table.mem_keys_insert.mpr (.inl rfl))

theorem stored (h : Room t ps) :
    List.Forall₂ (fun k g => (store t ps).find? k = some g) (storeKeys t ps) (ps.map (·.2)) := by
  induction ps generalizing t
  case nil          => exact .nil
  case cons p ps hi =>
    have hn := (List.nodup_cons.mp h.nodup).left
    have hp : (put t p).find? (grammarKey t p.1 p.2) = some p.2 :=
      Table.find?_insert.trans (if_pos rfl)
    exact .cons ((find?_store_of_not_mem hn).trans hp) (hi h.right)

end Room

-- After a load every grammar that was loaded has a key of its own, and so has every grammar that
-- was there before.
structure LosesNothing (before after : Table String Grammar) (keys : List String)
    (loaded : List Grammar) : Prop where
  stored : List.Forall₂ (fun k g => after.find? k = some g) keys loaded
  nodup  : keys.Nodup
  length : after.keys.length = before.keys.length + keys.length
  kept   : ∀ k g, before.find? k = some g → after.find? k = some g

theorem losesNothing_store_iff :
    LosesNothing t (store t ps) (storeKeys t ps) (ps.map (·.2)) ↔ Room t ps := by
  constructor
  case mp  => exact fun h => length_keys_store_iff.mp (length_storeKeys ▸ h.length)
  case mpr =>
    intro h
    refine ⟨h.stored, h.nodup, length_storeKeys ▸ length_keys_store_iff.mpr h, fun k g hg => ?_⟩
    have hk : k ∉ storeKeys t ps := fun hm => h.disjoint k hm (Table.mem_keys_iff.mpr ⟨g, hg⟩)
    exact (find?_store_of_not_mem hk).trans hg

def takeIn (id : Int) (state : Session × List String) (g : Grammar) : Session × List String :=
  ({ state.1 with grammars := put state.1.grammars (id, g) },
    state.2 ++ [grammarKey state.1.grammars id g])

theorem foldl_takeIn {id : Int} {gs : List Grammar} : gs.foldl (takeIn id) (s, keys) =
    ({ s with grammars := store s.grammars (gs.map (id, ·)) },
      keys ++ storeKeys s.grammars (gs.map (id, ·))) := by
  induction gs generalizing s keys
  case nil          => exact Prod.ext rfl (List.append_nil keys).symm
  case cons g gs hi =>
    rw [List.foldl_cons, takeIn, hi]
    exact Prod.ext rfl (List.append_assoc ..)

theorem addCase_eq : addCase (s, keys) c =
    ({ s with
        cases    := s.cases.insert c.id c
        grammars := store s.grammars (numbered [c]) },
      keys ++ storeKeys s.grammars (numbered [c])) := by
  rw [numbered, List.flatMap_singleton]
  exact foldl_takeIn

theorem foldl_addCase :
    (cases.foldl addCase (s, keys)).1.grammars = store s.grammars (numbered cases) ∧
      (cases.foldl addCase (s, keys)).2 = keys ++ storeKeys s.grammars (numbered cases) := by
  induction cases generalizing s keys
  case nil           => exact ⟨rfl, (List.append_nil keys).symm⟩
  case cons c cs hi =>
    have hn : numbered (c :: cs) = numbered [c] ++ numbered cs := by simp [numbered]
    rw [List.foldl_cons, addCase_eq, hn, store_append, storeKeys_append, ← List.append_assoc]
    exact hi

-- The keys that a load announces.
def loadKeys (s : Session) (cases : List TestCase) : List String :=
  storeKeys s.grammars (numbered cases)

def loadText (cases : Nat) (keys : List String) : String :=
  if cases = 0 then "No items loaded"
  else s!"Loaded {cases} test cases and {keys.length} grammars: " ++ ", ".intercalate keys

theorem load_eq {files : FileSystem} {file : String} {reading : CaseFile.Reading}
    (h : files.loadCases file = .ok reading) :
    (s.load files file).session.grammars = store s.grammars (numbered reading.cases) ∧
      (s.load files file).reply =
        .done (line (loadText reading.cases.length (s.loadKeys reading.cases))) := by
  have ⟨hg, hk⟩ := @foldl_addCase s [] reading.cases
  rw [load, h]
  refine ⟨hg, ?_⟩
  simp only [hk, loadText, loadKeys, List.isEmpty_iff_length_eq_zero]
  rfl

theorem load_loses_nothing_iff {files : FileSystem} {file : String} {reading : CaseFile.Reading}
    (h : files.loadCases file = .ok reading) :
    (s.load files file).reply =
      .done (line (loadText reading.cases.length (s.loadKeys reading.cases))) ∧
    (∀ k ∉ s.loadKeys reading.cases,
      (s.load files file).session.grammars.find? k = s.grammars.find? k) ∧
    (LosesNothing s.grammars (s.load files file).session.grammars (s.loadKeys reading.cases)
        (reading.cases.flatMap (·.grammars)) ↔
      Room s.grammars (numbered reading.cases)) := by
  have ⟨hg, ht⟩ := s.load_eq h
  have hn : (numbered reading.cases).map (·.2) = reading.cases.flatMap (·.grammars) := by
    simp [numbered, List.map_flatMap]
  rw [hg, ← hn]
  exact ⟨ht, fun _ => find?_store_of_not_mem, losesNothing_store_iff⟩

theorem loadCases_of_read {files : FileSystem} {file : String} {text : List Char}
    {reading : CaseFile.Reading} (ht : files.readText file = .ok text)
    (hr : CaseFile.read text = .ok reading) : files.loadCases file = .ok reading := by
  rw [FileSystem.loadCases, ht]
  exact congrArg (Except.mapError LoadError.cases) hr

def fileOf (text : String) : FileSystem :=
  FileSystem.initial.put ⟨.above 0, ["grammars.txt"]⟩ (.file text.toUTF8)

-- Grammars with nothing but names, in one test case.
def namedCase (id : Int) (names : List String) : TestCase where
  id       := id
  grammars := names.map fun name => { name }

def startedSession : Session where
  grammars := .ofList [("G1", { name := "G1", start := some "S" })]

-- A grammar whose name is taken, and another one.
theorem load_loses_nothing_renaming :
    (fileOf "2:\nG1:\nG2:\n").loadCases "grammars.txt" = .ok ⟨[namedCase 2 ["G1", "G2"]], []⟩ ∧
    startedSession.loadKeys [namedCase 2 ["G1", "G2"]] = ["G1_2", "G2"] ∧
    LosesNothing startedSession.grammars
      (startedSession.load (fileOf "2:\nG1:\nG2:\n") "grammars.txt").session.grammars
      (startedSession.loadKeys [namedCase 2 ["G1", "G2"]]) [{ name := "G1" }, { name := "G2" }] := by
  have ht : (fileOf "2:\nG1:\nG2:\n").readText "grammars.txt" = .ok "2:\nG1:\nG2:\n".toList := by
    decide +kernel
  have h : (fileOf "2:\nG1:\nG2:\n").loadCases "grammars.txt" =
      .ok ⟨[namedCase 2 ["G1", "G2"]], []⟩ :=
    loadCases_of_read ht (by decide +kernel)
  have ⟨_, _, hl⟩ := @load_loses_nothing_iff startedSession _ _ _ h
  exact ⟨h, by decide +kernel, hl.mpr (by decide +kernel)⟩

-- Three grammars with one name in one test case.
theorem not_load_loses_nothing_crowded :
    (fileOf "1:\nG1:\nG1:\nG1:\n").loadCases "grammars.txt" =
      .ok ⟨[namedCase 1 ["G1", "G1", "G1"]], []⟩ ∧
    loadKeys {} [namedCase 1 ["G1", "G1", "G1"]] = ["G1", "G1_1", "G1_1"] ∧
    (load {} (fileOf "1:\nG1:\nG1:\nG1:\n") "grammars.txt").session.grammars.keys =
      ["G1", "G1_1"] ∧
    ¬LosesNothing ∅ (load {} (fileOf "1:\nG1:\nG1:\nG1:\n") "grammars.txt").session.grammars
      (loadKeys {} [namedCase 1 ["G1", "G1", "G1"]])
      [{ name := "G1" }, { name := "G1" }, { name := "G1" }] := by
  have ht : (fileOf "1:\nG1:\nG1:\nG1:\n").readText "grammars.txt" =
      .ok "1:\nG1:\nG1:\nG1:\n".toList := by
    decide +kernel
  exact ⟨loadCases_of_read ht (by decide +kernel), by decide +kernel, by decide +kernel,
    fun h => absurd h.nodup (by decide +kernel)⟩

end RightLinear.Terminal.Session
