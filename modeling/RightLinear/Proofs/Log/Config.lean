import RightLinear.Log.Config
import RightLinear.Proofs.FileSystem

namespace RightLinear.Log.Config

variable {fs fs' : FileSystem} {c : Config} {out : Output} {records : List Record}
  {path text levelName : String} {ps : List String} {keys : Set String}
  {logFile : Option String} {useConsole : Bool}

theorem backups_subset (h : path ∈ c.file) : path :: backups path ⊆ c.paths := by
  simp [paths, Option.mem_def.mp h]

-- No directory is where the log or an older part of it is moved.
def Plain (c : Config) (fs : FileSystem) : Prop :=
  ∀ path ∈ c.paths, fs.isDirectory path = false

theorem Plain.of_alters (hp : c.Plain fs) (h : fs.Alters keys fs') : c.Plain fs' :=
  fun path hm => h.isDirectory_eq.trans (hp path hm)

theorem shift_alters (hp : ∀ p ∈ ps, fs.isDirectory p = false) :
    fs.Alters (fs.keysOf ps) (shift fs ps).1 := by
  induction ps
  case nil            => exact .refl
  case cons old ps hi =>
    cases ps
    case nil           => exact .refl
    case cons new rest =>
      have hs : fs.Alters (fs.keysOf (old :: new :: rest)) (shift fs (new :: rest)).1 :=
        (hi fun p hm => hp p (.tail _ hm)).mono
          (FileSystem.keysOf_mono (List.subset_cons_self _ _))
      rw [shift]
      generalize shift fs (new :: rest) = shifted at hs
      obtain ⟨fs₁, done⟩ := shifted
      cases done
      case false => exact hs
      case true  =>
        simp only
        split
        case isFalse => exact hs
        case isTrue  =>
          split
          case h_2    => exact hs
          case h_1 hm =>
            have hd : fs₁.isDirectory old = false := hs.isDirectory_eq.trans (hp old (.head _))
            refine hs.trans_keysOf ((FileSystem.move_alters hm hd).mono ?_)
            exact FileSystem.keysOf_mono (by simp)

theorem append_alters : fs.Alters (fs.keysOf (path :: backups path))
    (fs.appendFile path text.toUTF8).1 :=
  FileSystem.appendFile_alters.mono (FileSystem.keysOf_mono (by simp))

theorem write_alters (hp : ∀ p ∈ path :: backups path, fs.isDirectory p = false) :
    fs.Alters (fs.keysOf (path :: backups path)) (write path fs text) := by
  rw [write]
  split
  case isFalse => exact append_alters
  case isTrue  =>
    have hs := shift_alters hp
    generalize shift fs (path :: backups path) = shifted at hs
    obtain ⟨fs₁, done⟩ := shifted
    cases done
    case false => exact hs
    case true  =>
      simp only
      split
      case h_2    => exact hs
      case h_1 ho =>
        have opened := (FileSystem.openFile_alters ho).mono
          (FileSystem.keysOf_mono (List.cons_subset_cons path (List.nil_subset (backups path))))
        exact (hs.trans_keysOf opened).trans_keysOf append_alters

-- One line after another.
theorem foldl_write_alters {lines : List String}
    (hp : ∀ p ∈ path :: backups path, fs.isDirectory p = false) :
    fs.Alters (fs.keysOf (path :: backups path)) (lines.foldl (write path) fs) := by
  induction lines generalizing fs
  case nil             => exact .refl
  case cons line _ hi  =>
    have hw : fs.Alters (fs.keysOf (path :: backups path)) (write path fs line) := write_alters hp
    exact hw.trans_keysOf (hi fun p hm => hw.isDirectory_eq.trans (hp p hm))

-- Records change the log file and its older parts only.
theorem emit_alters (hp : c.Plain out.files) :
    out.files.Alters (out.files.keysOf c.paths) (c.emit out records).files := by
  cases hf : c.file <;> simp only [emit, hf]
  case none      => exact .refl
  case some path =>
    have hb : path :: backups path ⊆ c.paths := backups_subset hf
    exact (foldl_write_alters fun p hm => hp p (hb hm)).mono (FileSystem.keysOf_mono hb)

-- What is there once the directory of the log file is.
def prepare (fs : FileSystem) : Option String → Except SetupError FileSystem
  | none => .ok fs
  | some path =>
    match fs.makeOnDemand (FileSystem.lineage (FileSystem.parent path)) with
    | (fs, none) => .ok fs
    | (_, some e) => .error (.directory e)

def consoleLevel (levelName : String) (useConsole : Bool) : Except SetupError (Option Level) :=
  if useConsole then
    match level? levelName with
    | some level => .ok (some level)
    | none => .error .consoleLevel
  else .ok none

-- The configuration with a log file, which is made if it is not there, or without one.
def attach (levelName : String) (console : Option Level) (fs : FileSystem) :
    Option String → Except SetupError (Config × FileSystem)
  | some path =>
    match fs.openFile path with
    | .ok fs => .ok (⟨.debug, console, some path⟩, fs)
    | .error _ => .error .file
  | none =>
    match level? levelName with
    | some level => .ok (⟨level, console, none⟩, fs)
    | none => .error .loggerLevel

theorem setup_eq {log : Option String}
    (hl : (logFile.filter (!·.isEmpty)).map FileSystem.tidy = log) :
    setup levelName logFile useConsole fs = prepare fs log >>= fun fs =>
      consoleLevel levelName useConsole >>= fun console => attach levelName console fs log := by
  rw [setup, hl]
  simp only [prepare, consoleLevel, attach]
  generalize level? levelName = level
  cases log
  case none      => cases useConsole <;> cases level <;> rfl
  case some path =>
    simp only
    generalize fs.makeOnDemand (FileSystem.lineage (FileSystem.parent path)) = made
    obtain ⟨fs₁, e⟩ := made
    cases e
    case some => rfl
    case none => cases useConsole <;> cases level <;> rfl

theorem prepare_keeps {log : Option String} (h : prepare fs log = .ok fs') : fs.Keeps ∅ fs' := by
  cases log
  case none      => cases h; exact .refl
  case some path =>
    have hk : fs.Keeps ∅ (fs.makeOnDemand (FileSystem.lineage (FileSystem.parent path))).1 :=
      FileSystem.makeOnDemand_keeps
    rw [prepare] at h
    split at h
    case h_1 hm =>
      rw [hm] at hk
      exact Except.ok.inj h ▸ hk
    case h_2    => cases h

theorem attach_keeps {console : Option Level} {log : Option String}
    (h : attach levelName console fs log = .ok (c, fs')) :
    fs.Keeps (fs'.keysOf c.paths) fs' := by
  cases log
  case none      =>
    rw [attach] at h
    split at h <;> cases h
    exact .refl
  case some path =>
    rw [attach] at h
    split at h <;> cases h
    case h_1 ho =>
      have hs : [path] ⊆ paths ⟨.debug, console, some path⟩ := by simp [paths]
      have ha := FileSystem.openFile_alters ho
      exact ha.keeps.mono (ha.keysOf_eq ▸ FileSystem.keysOf_mono hs)

theorem setup_keeps (h : setup levelName logFile useConsole fs = .ok (c, fs')) :
    fs.Keeps (fs'.keysOf c.paths) fs' := by
  rw [setup_eq rfl] at h
  have ⟨fs₁, h₁, h⟩ := exists_of_bind_eq_ok h
  have ⟨_, _, h⟩ := exists_of_bind_eq_ok h
  exact ((prepare_keeps h₁).mono (Set.empty_subset _)).trans (attach_keeps h)

end RightLinear.Log.Config
