import Mathlib.Data.Set.Insert
import RightLinear.FileSystem
import RightLinear.Proofs.Failure

namespace RightLinear.FileSystem

variable {fs fs' : FileSystem} {place place' : Place} {path name key : String} {names : List String}
  {t : Target} {content bytes : ByteArray} {paths : List String} {keys keys' : Set String}

-- Every directory of the one file system is a directory of the other.
def Within (fs fs' : FileSystem) : Prop :=
  ∀ key, fs.nodes.find? key = some .directory → fs'.nodes.find? key = some .directory

theorem node?_child : fs.node? (place.child name) = fs.nodes.find? (place.child name).path :=
  rfl

-- The place that a path begins at, and its names.
def start (path : String) : Place :=
  ⟨if isAbsolute path then .root else .above 0, []⟩

def pathNames (path : String) : List String :=
  (pieces path).filter (!·.isEmpty)

-- The target of a path whose last name is looked up from a directory.
def arrive (fs : FileSystem) (path : String) (last : Option String) (directory : Place) :
    Except FileCause Target :=
  match last with
  | none => .ok ⟨directory, none, false⟩
  | some name =>
    if name = "." || name = ".." then (fs.enter directory name).map (⟨·, none, false⟩)
    else .ok ⟨directory, some name, path.toList.getLast? = some '/'⟩

theorem target_eq : fs.target path =
    if '\x00' ∈ path.toList then .error .nullCharacter
    else if path.isEmpty then .error .noEntry
    else if 4096 ≤ path.utf8ByteSize then .error .nameTooLong
    else (pathNames path).dropLast.foldlM fs.enter (start path) >>=
      fs.arrive path (pathNames path).getLast? :=
  rfl

theorem find_eq_directory_iff : fs.find path = .ok .directory ↔
    ∃ t place, fs.target path = .ok t ∧ fs.look t = .ok (place, some .directory) := by
  constructor
  case mp  =>
    intro h
    have ⟨t, ht, h⟩ := exists_of_bind_eq_ok h
    have ⟨⟨place, node⟩, hl, h⟩ := exists_of_bind_eq_ok h
    refine ⟨t, place, ht, ?_⟩
    cases node
    case none      => cases h
    case some node =>
      cases node
      case directory => exact hl
      all_goals cases hs : t.slashed <;> simp [hs] at h
  case mpr =>
    rintro ⟨t, place, ht, hl⟩
    simp only [find, ht, bind, Except.bind, hl]

theorem isDirectory_iff : fs.isDirectory path = true ↔ fs.find path = .ok .directory := by
  rw [isDirectory, decide_eq_true_eq]
  exact ⟨eq_ok_of_toOption, fun h => by rw [h]; rfl⟩

namespace Within

theorem look (h : fs.Within fs') (hl : fs.look t = .ok (place, some .directory)) :
    fs'.look t = .ok (place, some .directory) := by
  rw [FileSystem.look] at hl ⊢
  split at hl
  case h_1 => exact hl
  case h_2 =>
    split at hl
    case isTrue     => cases hl
    case isFalse hs =>
      have ⟨hp, hd⟩ := Prod.mk.inj (Except.ok.inj hl)
      rw [node?_child] at hd
      rw [← hp, node?_child, h _ hd, if_neg hs]

theorem enter (h : fs.Within fs') (he : fs.enter place name = .ok place') :
    fs'.enter place name = .ok place' := by
  rw [FileSystem.enter] at he ⊢
  split_ifs at he ⊢
  case pos => exact he
  case pos => exact he
  case neg =>
    split at he
    case h_1 hn => rw [node?_child, h _ hn, he]
    case h_2    => cases he
    case h_3    => cases he

theorem foldlM_enter (h : fs.Within fs') (he : names.foldlM fs.enter place = .ok place') :
    names.foldlM fs'.enter place = .ok place' := by
  induction names generalizing place
  case nil              => exact he
  case cons name names hi =>
    have ⟨place₁, h₁, h₂⟩ := exists_of_bind_eq_ok he
    rw [List.foldlM_cons, h.enter h₁]
    exact hi h₂

theorem arrive {last : Option String} (h : fs.Within fs') (ha : fs.arrive path last place = .ok t) :
    fs'.arrive path last place = .ok t := by
  cases last
  case none      => exact ha
  case some name =>
    rw [FileSystem.arrive] at ha ⊢
    split_ifs at ha ⊢
    case neg => exact ha
    case pos =>
      cases he : fs.enter place name <;> rw [he] at ha
      case error => cases ha
      case ok    => rw [h.enter he, ha]

theorem target (h : fs.Within fs') (ht : fs.target path = .ok t) : fs'.target path = .ok t := by
  rw [target_eq] at ht ⊢
  split_ifs at ht ⊢
  have ⟨directory, hd, ha⟩ := exists_of_bind_eq_ok ht
  rw [h.foldlM_enter hd]
  exact h.arrive ha

theorem isDirectory (h : fs.Within fs') (hd : fs.isDirectory path = true) :
    fs'.isDirectory path = true := by
  rw [isDirectory_iff, find_eq_directory_iff] at hd ⊢
  have ⟨t, place, ht, hl⟩ := hd
  exact ⟨t, place, h.target ht, h.look hl⟩

end Within

def keysOf (fs : FileSystem) (paths : List String) : Set String :=
  {key | ∃ path ∈ paths, fs.key? path = some key}

theorem keysOf_mono {paths' : List String} (h : paths ⊆ paths') :
    fs.keysOf paths ⊆ fs.keysOf paths' :=
  fun _ ⟨p, hp, hk⟩ => ⟨p, h hp, hk⟩

-- A path leads to a place where a file is or can be.
inductive Leads (fs : FileSystem) (path : String) : String → Prop
  | intro {directory : Place} {name : String}
    (ht : fs.target path = .ok ⟨directory, some name, false⟩) (hl : isTooLong name = false)
    (hn : fs.nodes.find? (directory.child name).path ≠ some .directory) :
    Leads fs path (directory.child name).path

namespace Leads

theorem key?_eq (h : fs.Leads path key) : fs.key? path = some key := by
  cases h
  case intro ht _ _ => rw [key?, ht]

theorem mem_keysOf (h : fs.Leads path key) (hp : path ∈ paths) : key ∈ fs.keysOf paths :=
  ⟨path, hp, h.key?_eq⟩

theorem not_directory (h : fs.Leads path key) : fs.nodes.find? key ≠ some .directory := by
  cases h
  case intro hn => exact hn

theorem find_eq (h : fs.Leads path key) : fs.find path = match fs.nodes.find? key with
    | some node => .ok node
    | none      => .error .noEntry := by
  cases h
  case intro directory name ht hl hn =>
    simp only [find, ht, bind, Except.bind, look, hl, Bool.false_eq_true, if_false, node?_child]
    cases hk : fs.nodes.find? (directory.child name).path
    case none      => rfl
    case some node =>
      cases node
      case directory => exact absurd hk hn
      all_goals rfl

end Leads

-- What is found at a target is a directory, or it is in the directory of the target.
theorem exists_of_look {node : Option Node} (hl : fs.look t = .ok (place, node))
    (hn : node ≠ some .directory) :
    ∃ name, t.name = some name ∧ isTooLong name = false ∧ t.directory.child name = place ∧
      fs.nodes.find? place.path = node := by
  rw [look] at hl
  split at hl
  case h_1           => cases hl; exact absurd rfl hn
  case h_2 name hname =>
    split at hl
    case isTrue     => cases hl
    case isFalse hf =>
      cases hl
      exact ⟨name, hname, eq_false_of_ne_true hf, rfl, rfl⟩

theorem leads_of_look {node : Option Node} (ht : fs.target path = .ok t)
    (hl : fs.look t = .ok (place, node)) (hs : t.slashed = false) (hn : node ≠ some .directory) :
    fs.Leads path place.path ∧ fs.nodes.find? place.path = node := by
  obtain ⟨name, hname, hf, rfl, hk⟩ := exists_of_look hl hn
  have ht : fs.target path = .ok ⟨t.directory, some name, false⟩ := by rw [ht, ← hname, ← hs]
  exact ⟨.intro ht hf (hk ▸ hn), hk⟩

theorem leads_of_find {node : Node} (h : fs.find path = .ok node) (hn : node ≠ .directory) :
    ∃ key, fs.Leads path key ∧ fs.nodes.find? key = some node := by
  have ⟨t, ht, h⟩ := exists_of_bind_eq_ok h
  have ⟨⟨place, found⟩, hl, h⟩ := exists_of_bind_eq_ok h
  cases found
  case none       => cases h
  case some found =>
    cases hs : t.slashed
    case true  =>
      cases found <;> simp only [hs] at h <;> cases h
      exact absurd rfl hn
    case false =>
      have he : found = node := by
        cases found <;> simp only [hs] at h <;> exact Except.ok.inj h
      have hd : some found ≠ some .directory := fun hd => hn (he ▸ Option.some.inj hd)
      exact ⟨_, he ▸ leads_of_look ht hl hs hd⟩

theorem find_eq_ok_iff {node : Node} (hn : node ≠ .directory) :
    fs.find path = .ok node ↔ ∃ key, fs.Leads path key ∧ fs.nodes.find? key = some node := by
  refine ⟨fun h => leads_of_find h hn, fun h => ?_⟩
  have ⟨key, hl, hk⟩ := h
  rw [hl.find_eq, hk]

theorem content?_eq_some_iff : fs.content? path = some content ↔
    ∃ key, fs.Leads path key ∧ fs.nodes.find? key = some (.file content) := by
  have hn : Node.file content ≠ .directory := nofun
  rw [← find_eq_ok_iff hn, content?]
  split
  case h_1 hf => simp [hf]
  case h_2 hf => exact iff_of_false nofun (hf content)

theorem readFile_eq_ok_iff : fs.readFile path = .ok content ↔
    (fs.limitsAt path).reading = none ∧ (fs.content? path = some content ∨
      fs.find path = .ok .nullDevice ∧ content = .empty) := by
  rw [readFile, content?]
  cases (fs.limitsAt path).reading <;> cases fs.find path
  case none.ok node => cases node <;> simp [eq_comm]
  case some.ok node => cases node <;> simp
  all_goals simp

-- The nodes once there is a file at a place that is no directory.
def made (fs : FileSystem) (key : String) : FileSystem :=
  match fs.nodes.find? key with
  | none => { fs with nodes := fs.nodes.insert key (.file .empty) }
  | some _ => fs

theorem Leads.openFile_eq (h : fs.Leads path key) : fs.openFile path =
    match (fs.limitsAt path).writing with
    | none   => .ok (fs.made key)
    | some e => .error ⟨.refused e, path⟩ := by
  cases h
  case intro directory name ht hl hn =>
    simp only [openFile, ht, bind, Except.bind, look, hl, Bool.false_eq_true, if_false, node?_child,
      made]
    cases hk : fs.nodes.find? (directory.child name).path
    case none      => cases (fs.limitsAt path).writing <;> rfl
    case some node =>
      cases node
      case directory => exact absurd hk hn
      all_goals cases (fs.limitsAt path).writing <;> rfl

theorem leads_of_openFile (h : fs.openFile path = .ok fs') : ∃ key, fs.Leads path key := by
  rw [openFile] at h
  cases ht : fs.target path <;> rw [ht] at h
  case error => cases h
  case ok t  =>
    cases hs : t.slashed
    case true  => simp [hs, bind, Except.bind, Except.mapError] at h
    case false =>
      cases hl : fs.look t
      case error => simp [hs, hl, bind, Except.bind, Except.mapError] at h
      case ok p  =>
        obtain ⟨place, node⟩ := p
        refine ⟨_, (leads_of_look ht hl hs fun hn => ?_).left⟩
        simp [hs, hl, hn, bind, Except.bind, Except.mapError] at h

theorem openFile_eq_ok_iff : fs.openFile path = .ok fs' ↔
    ∃ key, fs.Leads path key ∧ (fs.limitsAt path).writing = none ∧ fs' = fs.made key := by
  constructor
  case mp  =>
    intro h
    have ⟨key, hl⟩ := leads_of_openFile h
    rw [hl.openFile_eq] at h
    split at h
    case h_1 hw => exact ⟨key, hl, hw, (Except.ok.inj h).symm⟩
    case h_2    => cases h
  case mpr =>
    rintro ⟨key, hl, hw, rfl⟩
    rw [hl.openFile_eq, hw]

-- A file can be opened for writing.
def Opens (fs : FileSystem) (path : String) : Prop :=
  ∃ fs', fs.openFile path = .ok fs'

theorem opens_iff : fs.Opens path ↔
    (∃ key, fs.Leads path key) ∧ (fs.limitsAt path).writing = none := by
  simp only [Opens, openFile_eq_ok_iff]
  grind

-- A file can hold so many bytes.
def Fits (fs : FileSystem) (path : String) (size : Nat) : Prop :=
  ∀ most e, (fs.limitsAt path).growing = some (most, e) → size ≤ most

-- Nothing but files at some places is changed, made or taken away.
structure Alters (fs : FileSystem) (keys : Set String) (fs' : FileSystem) : Prop where
  within : fs.Within fs'
  holds  : fs'.Within fs
  others : ∀ key ∉ keys, fs'.nodes.find? key = fs.nodes.find? key
  limits : fs'.limits = fs.limits

-- Nothing but what is at some places is changed, and nothing else but directories is made.
def Keeps (fs : FileSystem) (keys : Set String) (fs' : FileSystem) : Prop :=
  ∀ key ∉ keys, fs'.nodes.find? key = fs.nodes.find? key ∨
    fs.nodes.find? key = none ∧ fs'.nodes.find? key = some .directory

namespace Alters

variable {fs'' : FileSystem}

theorem refl : fs.Alters keys fs where
  within _ := id
  holds _  := id
  others _ := fun _ => rfl
  limits   := rfl

theorem trans (h : fs.Alters keys fs') (h' : fs'.Alters keys fs'') : fs.Alters keys fs'' where
  within _ hd   := h'.within _ (h.within _ hd)
  holds _ hd    := h.holds _ (h'.holds _ hd)
  others key hk := (h'.others key hk).trans (h.others key hk)
  limits        := h'.limits.trans h.limits

theorem mono (h : fs.Alters keys fs') (hk : keys ⊆ keys') : fs.Alters keys' fs' where
  within        := h.within
  holds         := h.holds
  others key hn := h.others key fun hm => hn (hk hm)
  limits        := h.limits

theorem key?_eq (h : fs.Alters keys fs') : fs'.key? path = fs.key? path := by
  rw [key?, key?]
  cases ht : fs.target path
  case ok t    => rw [h.within.target ht]
  case error e =>
    cases ht' : fs'.target path
    case ok t    => cases (h.holds.target ht').symm.trans ht
    case error e => rfl

theorem keysOf_eq (h : fs.Alters keys fs') : fs'.keysOf paths = fs.keysOf paths := by
  simp only [keysOf, h.key?_eq]

-- Alterations at the places of some paths, one after another.
theorem trans_keysOf (h : fs.Alters (fs.keysOf paths) fs')
    (h' : fs'.Alters (fs'.keysOf paths) fs'') : fs.Alters (fs.keysOf paths) fs'' :=
  h.trans (h.keysOf_eq ▸ h')

theorem limitsAt_eq (h : fs.Alters keys fs') : fs'.limitsAt path = fs.limitsAt path := by
  rw [limitsAt, limitsAt, h.key?_eq, h.limits]

theorem isDirectory_eq (h : fs.Alters keys fs') : fs'.isDirectory path = fs.isDirectory path :=
  Bool.eq_iff_iff.mpr ⟨h.holds.isDirectory, h.within.isDirectory⟩

theorem leads_iff (h : fs.Alters keys fs') : fs'.Leads path key ↔ fs.Leads path key := by
  constructor
  case mp  =>
    rintro ⟨ht, hl, hn⟩
    exact .intro (h.holds.target ht) hl fun hd => hn (h.within _ hd)
  case mpr =>
    rintro ⟨ht, hl, hn⟩
    exact .intro (h.within.target ht) hl fun hd => hn (h.holds _ hd)

theorem find_eq_ok_iff {node : Node} (h : fs.Alters keys fs')
    (hk : ∀ key ∈ keys, fs.key? path ≠ some key) (hn : node ≠ .directory) :
    fs'.find path = .ok node ↔ fs.find path = .ok node := by
  simp only [FileSystem.find_eq_ok_iff hn, h.leads_iff]
  refine exists_congr fun key => and_congr_right fun hl => ?_
  rw [h.others key fun hm => hk key hm hl.key?_eq]

theorem content?_eq (h : fs.Alters keys fs') (hk : ∀ key ∈ keys, fs.key? path ≠ some key) :
    fs'.content? path = fs.content? path := by
  ext content
  have hn : Node.file content ≠ .directory := nofun
  rw [content?_eq_some_iff, content?_eq_some_iff, ← FileSystem.find_eq_ok_iff hn,
    ← FileSystem.find_eq_ok_iff hn, h.find_eq_ok_iff hk hn]

theorem readFile_eq_ok_iff (h : fs.Alters keys fs') (hk : ∀ key ∈ keys, fs.key? path ≠ some key) :
    fs'.readFile path = .ok content ↔ fs.readFile path = .ok content := by
  have hn : Node.nullDevice ≠ .directory := nofun
  rw [FileSystem.readFile_eq_ok_iff, FileSystem.readFile_eq_ok_iff, h.limitsAt_eq, h.content?_eq hk,
    h.find_eq_ok_iff hk hn]

theorem opens_iff (h : fs.Alters keys fs') : fs'.Opens path ↔ fs.Opens path := by
  simp only [FileSystem.opens_iff, h.leads_iff, h.limitsAt_eq]

theorem fits_iff {size : Nat} (h : fs.Alters keys fs') :
    fs'.Fits path size ↔ fs.Fits path size := by
  simp only [Fits, h.limitsAt_eq]

theorem keeps (h : fs.Alters keys fs') : fs.Keeps keys fs' :=
  fun key hk => .inl (h.others key hk)

end Alters

-- Neither what is at a place nor what takes its place is a directory.
theorem alters_insert {node : Node} (hd : fs.nodes.find? key ≠ some .directory)
    (hn : node ≠ .directory) : fs.Alters {key} { fs with nodes := fs.nodes.insert key node } where
  within k hk := by
    have he : k ≠ key := fun he => hd (he ▸ hk)
    rw [Table.find?_insert, if_neg he, hk]
  holds k hk := by
    rw [Table.find?_insert] at hk
    split at hk
    case isTrue  => exact absurd (Option.some.inj hk) hn
    case isFalse => exact hk
  others _ hk := Table.find?_insert.trans (if_neg hk)
  limits := rfl

theorem alters_erase (hd : fs.nodes.find? key ≠ some .directory) :
    fs.Alters {key} { fs with nodes := fs.nodes.erase key } where
  within k hk := by
    have he : k ≠ key := fun he => hd (he ▸ hk)
    rw [Table.find?_erase, if_neg he, hk]
  holds k hk := by
    rw [Table.find?_erase] at hk
    split at hk
    case isTrue  => cases hk
    case isFalse => exact hk
  others _ hk := Table.find?_erase.trans (if_neg hk)
  limits := rfl

theorem Leads.alters_made (h : fs.Leads path key) : fs.Alters (fs.keysOf [path]) (fs.made key) := by
  refine Alters.mono ?_ (Set.singleton_subset_iff.mpr (h.mem_keysOf (.head _)))
  rw [made]
  split
  case h_1 => exact alters_insert h.not_directory nofun
  case h_2 => exact .refl

theorem openFile_alters (h : fs.openFile path = .ok fs') : fs.Alters (fs.keysOf [path]) fs' := by
  obtain ⟨key, hl, _, rfl⟩ := openFile_eq_ok_iff.mp h
  exact hl.alters_made

theorem setContent_alters : fs.Alters (fs.keysOf [path]) (fs.setContent path content) := by
  rw [setContent]
  split
  case h_2 => exact .refl
  case h_1 hc hk =>
    have ⟨key', hl, _⟩ := content?_eq_some_iff.mp hc
    obtain rfl := Option.some.inj (hk.symm.trans hl.key?_eq)
    have hn : Node.file content ≠ .directory := nofun
    exact (alters_insert hl.not_directory hn).mono
      (Set.singleton_subset_iff.mpr (hl.mem_keysOf (.head _)))

theorem content?_setContent (h : (fs.content? path).isSome) :
    (fs.setContent path content).content? path = some content := by
  have ⟨old, ho⟩ := Option.isSome_iff_exists.mp h
  have ⟨key, hl, _⟩ := content?_eq_some_iff.mp ho
  refine content?_eq_some_iff.mpr ⟨key, setContent_alters.leads_iff.mpr hl, ?_⟩
  rw [setContent, ho, hl.key?_eq]
  exact Table.find?_insert.trans (if_pos rfl)

theorem createFile_eq_ok_iff : fs.createFile path = .ok fs' ↔
    ∃ opened, fs.openFile path = .ok opened ∧ fs' = opened.setContent path .empty := by
  rw [createFile]
  cases fs.openFile path <;> simp [Except.map, eq_comm]

theorem createFile_alters (h : fs.createFile path = .ok fs') :
    fs.Alters (fs.keysOf [path]) fs' := by
  obtain ⟨opened, ho, rfl⟩ := createFile_eq_ok_iff.mp h
  exact (openFile_alters ho).trans_keysOf setContent_alters

-- What was created is an empty file, unless it is the null device.
theorem content?_of_createFile (h : fs.createFile path = .ok fs') :
    fs.find path = .ok .nullDevice ∧ fs' = fs ∨ fs'.content? path = some .empty := by
  obtain ⟨opened, ho, rfl⟩ := createFile_eq_ok_iff.mp h
  obtain ⟨key, hl, _, rfl⟩ := openFile_eq_ok_iff.mp ho
  have content (bytes : ByteArray) (hk : (fs.made key).nodes.find? key = some (.file bytes)) :
      ((fs.made key).setContent path .empty).content? path = some .empty := by
    refine content?_setContent (Option.isSome_iff_exists.mpr ⟨bytes, ?_⟩)
    exact content?_eq_some_iff.mpr ⟨key, hl.alters_made.leads_iff.mpr hl, hk⟩
  cases hk : fs.nodes.find? key
  case none      =>
    refine .inr (content .empty ?_)
    rw [made, hk]
    exact Table.find?_insert.trans (if_pos rfl)
  case some node =>
    have hm : fs.made key = fs := by rw [made, hk]
    cases node
    case file bytes => exact .inr (content bytes (hm.symm ▸ hk))
    case directory  => exact absurd hk hl.not_directory
    case nullDevice =>
      have hf : fs.find path = .ok .nullDevice := by rw [hl.find_eq, hk]
      have hc : fs.content? path = none := by rw [content?, hf]
      exact .inl ⟨hf, by rw [hm, setContent, hc]⟩

theorem appendFile_alters : fs.Alters (fs.keysOf [path]) (fs.appendFile path bytes).1 := by
  rw [appendFile]
  split
  case h_1 => exact setContent_alters
  case h_2 => split <;> exact setContent_alters

-- What is written to an empty file, all of it if it fits.
theorem appendFile_of_fits (he : (fs.content? path).getD .empty = .empty)
    (hf : fs.Fits path bytes.size) :
    fs.appendFile path bytes = (fs.setContent path bytes, none) := by
  rw [appendFile, he]
  simp only [ByteArray.empty_append, ByteArray.size_empty, Nat.zero_add]
  split
  case h_1           => rfl
  case h_2 most e hg => rw [if_pos (hf most e hg)]

theorem appendFile_of_not_fits (he : (fs.content? path).getD .empty = .empty)
    (hf : ¬fs.Fits path bytes.size) : ∃ most e, most < bytes.size ∧
      fs.appendFile path bytes = (fs.setContent path (bytes.extract 0 most), some e) := by
  simp only [Fits, not_forall, Nat.not_le] at hf
  have ⟨most, e, hg, hm⟩ := hf
  refine ⟨most, e, hm, ?_⟩
  rw [appendFile, he, hg]
  simp [Nat.not_le.mpr hm]

-- A file that is moved changes no place but its own and the one it is moved to.
theorem move_alters {old new : String} (h : fs.move old new = .ok fs')
    (hd : fs.isDirectory old = false) : fs.Alters (fs.keysOf [old, new]) fs' := by
  rw [move] at h
  split at h
  case h_1      => cases h
  case h_2 ho   =>
    obtain ⟨k, hl, -⟩ := openFile_eq_ok_iff.mp ho
    split at h
    case h_2 => cases h
    case h_3 => cases h
    case h_1 node k₁ k₂ hf hk₁ hk₂ =>
      have hn : node ≠ .directory := by
        rintro rfl
        simp [isDirectory, hf, Except.toOption] at hd
      obtain ⟨k', hl', -⟩ := leads_of_find hf hn
      obtain rfl := Option.some.inj (hk₁.symm.trans hl'.key?_eq)
      obtain rfl := Option.some.inj (hk₂.symm.trans hl.key?_eq)
      simp only [if_neg hn] at h
      have erased : fs.Alters (fs.keysOf [old, new]) { fs with nodes := fs.nodes.erase k₁ } :=
        (alters_erase hl'.not_directory).mono
          (Set.singleton_subset_iff.mpr (hl'.mem_keysOf (.head _)))
      have hl₂ := erased.leads_iff.mpr hl
      refine Except.ok.inj h ▸ erased.trans ((alters_insert hl₂.not_directory hn).mono ?_)
      exact Set.singleton_subset_iff.mpr (hl.mem_keysOf (.tail _ (.head _)))

namespace Keeps

variable {fs'' : FileSystem}

theorem refl : fs.Keeps keys fs :=
  fun _ _ => .inl rfl

theorem mono (h : fs.Keeps keys fs') (hk : keys ⊆ keys') : fs.Keeps keys' fs' :=
  fun key hn => h key fun hm => hn (hk hm)

theorem trans (h : fs.Keeps keys fs') (h' : fs'.Keeps keys fs'') : fs.Keeps keys fs'' := by
  intro key hk
  cases h' key hk
  case inl he => exact (h key hk).imp he.trans (.imp_right he.trans)
  case inr hn =>
    cases h key hk
    case inl he => exact .inr ⟨he ▸ hn.left, hn.right⟩
    case inr hd => cases hd.right.symm.trans hn.left

end Keeps

theorem makeDirectory_keeps (h : fs.makeDirectory path = .ok fs') : fs.Keeps ∅ fs' := by
  rw [makeDirectory] at h
  cases ht : fs.target path <;> rw [ht] at h
  case error => cases h
  case ok t  =>
    cases hl : fs.look t
    case error => simp [hl, bind, Except.bind, Except.mapError] at h
    case ok p  =>
      have ⟨place, node⟩ := p
      cases node
      case some => simp [hl, bind, Except.bind, Except.mapError] at h
      case none =>
        simp only [hl, bind, Except.bind, Except.mapError] at h
        cases hw : (fs.limitsAt path).writing <;> simp only [hw, reduceCtorEq, Except.ok.injEq] at h
        have ⟨_, _, _, _, hn⟩ := exists_of_look hl nofun
        intro key _
        rw [← h, put, Table.find?_insert]
        split
        case isTrue he => exact .inr ⟨he ▸ hn, rfl⟩
        case isFalse   => exact .inl rfl

theorem ensureDirectory_keeps : fs.Keeps ∅ (fs.ensureDirectory path).1 := by
  rw [ensureDirectory]
  split
  case h_1 h => exact makeDirectory_keeps h
  case h_2   => exact .refl

theorem makeOnDemand_keeps {paths : List String} : fs.Keeps ∅ (fs.makeOnDemand paths).1 := by
  induction paths generalizing fs
  case nil                => exact .refl
  case cons path paths hi =>
    have h₁ : fs.Keeps ∅ (fs.ensureDirectory path).1 := ensureDirectory_keeps
    rw [makeOnDemand]
    split
    case h_2 fs₁ he   => exact he ▸ h₁
    case h_1 fs₁ e he =>
      rw [he] at h₁
      have h₂ : fs.Keeps ∅ (fs₁.makeOnDemand paths).1 := h₁.trans hi
      split
      case isFalse => exact h₁
      case isTrue  =>
        split
        case h_1 hm => exact hm ▸ h₂
        case h_2 hm => exact (hm ▸ h₂).trans ensureDirectory_keeps

theorem enter_ne_nullCharacter : fs.enter place name ≠ .error .nullCharacter := by
  rw [enter]
  split_ifs
  case neg => split <;> exact nofun
  all_goals exact nofun

theorem foldlM_enter_ne_nullCharacter : names.foldlM fs.enter place ≠ .error .nullCharacter := by
  induction names generalizing place
  case nil                => exact nofun
  case cons name names hi =>
    rw [List.foldlM_cons, ne_eq, bind_eq_error_iff, not_or]
    exact ⟨enter_ne_nullCharacter, fun ⟨_, _, he⟩ => hi he⟩

theorem arrive_ne_nullCharacter {last : Option String} :
    fs.arrive path last place ≠ .error .nullCharacter := by
  cases last
  case none      => exact nofun
  case some name =>
    rw [arrive]
    split_ifs
    case neg => exact nofun
    case pos =>
      have he : fs.enter place name ≠ .error .nullCharacter := enter_ne_nullCharacter
      cases h : fs.enter place name
      case ok    => exact nofun
      case error => exact fun ha => he (h.trans (congrArg _ (Except.error.inj ha)))

theorem target_eq_error_nullCharacter_iff :
    fs.target path = .error .nullCharacter ↔ '\x00' ∈ path.toList := by
  rw [target_eq]
  split_ifs with hn
  case pos => exact iff_of_true rfl hn
  case neg =>
    refine iff_of_false ?_ hn
    rw [bind_eq_error_iff, not_or]
    exact ⟨foldlM_enter_ne_nullCharacter, fun ⟨_, _, he⟩ => arrive_ne_nullCharacter he⟩
  all_goals exact iff_of_false nofun hn

theorem look_ne_nullCharacter : fs.look t ≠ .error .nullCharacter := by
  rw [look]
  split
  case h_1 => exact nofun
  case h_2 => split_ifs <;> exact nofun

-- A file cannot be opened at a path with a null character, whatever the directories.
theorem cause_of_openFile {e : FileError} (h : fs.openFile path = .error e) :
    e.cause = .nullCharacter ↔ '\x00' ∈ path.toList := by
  rw [← fs.target_eq_error_nullCharacter_iff]
  rw [openFile] at h
  cases ht : fs.target path <;> rw [ht] at h
  case error c => cases h; simp
  case ok t    =>
    refine iff_of_false (fun he => ?_) nofun
    cases hs : t.slashed
    case true  =>
      simp only [hs, bind, Except.bind, if_true, Except.mapError] at h
      cases h
      cases he
    case false =>
      simp only [hs, bind, Except.bind, Bool.false_eq_true, if_false] at h
      cases hl : fs.look t
      case error c =>
        rw [hl] at h
        cases h
        exact look_ne_nullCharacter (hl.trans (congrArg _ he))
      case ok p    =>
        rw [hl] at h
        match p, (fs.limitsAt path).writing, h with
        | (_, some .directory), _, h => cases h; cases he
        | (_, some (.file _)), some _, h => cases h; cases he
        | (_, some .nullDevice), some _, h => cases h; cases he
        | (_, none), some _, h => cases h; cases he

end RightLinear.FileSystem
