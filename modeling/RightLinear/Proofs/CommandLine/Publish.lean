import Mathlib.Data.List.TakeWhile
import RightLinear.CommandLine.Run
import RightLinear.Proofs.Log.Config

namespace RightLinear

open Text (Points points)

namespace Text

variable {ps : Points} {s : String}

theorem ofPoints_points : ofPoints (points s) = s := by
  simp [ofPoints, points, CodePoint.toChar, CodePoint.char?, Function.comp_def]

theorem points_ofPoints (h : ∀ p ∈ ps, p.char?.isSome) : points (ofPoints ps) = ps := by
  have hp : ∀ p ∈ ps, CodePoint.char p.toChar = p := by
    intro p hm
    cases p
    case char      => rfl
    case surrogate => cases h _ hm
  rw [points, ofPoints, String.toList_ofList, List.map_map]
  exact (List.map_congr_left hp).trans (List.map_id ps)

theorem string?_eq_ok_iff : string? ps = .ok s ↔ ps = points s := by
  constructor
  case mp =>
    intro h
    rw [string?] at h
    split at h
    case h_1 hd =>
      obtain rfl := Except.ok.inj h
      exact (points_ofPoints (List.dropWhile_eq_nil_iff.mp hd)).symm
    case h_2    => cases h
  case mpr =>
    rintro rfl
    have hd : (points s).dropWhile (·.char?.isSome) = [] :=
      List.dropWhile_eq_nil_iff.mpr (by simp [points, CodePoint.char?])
    simp only [string?, hd, ofPoints_points]

theorem exists_string?_eq_error (h : ∀ s, ps ≠ points s) : ∃ e, string? ps = .error e := by
  cases hs : string? ps
  case ok s    => exact absurd (string?_eq_ok_iff.mp hs) (h s)
  case error e => exact ⟨e, rfl⟩

end Text

namespace FileSystem

variable {fs fs' : FileSystem} {keys : Set String} {path : String} {text : List Char}

theorem readText_eq_ok_iff : fs.readText path = .ok text ↔
    ∃ content s, fs.readFile path = .ok content ∧ Text.decodeUtf8 content = .ok s ∧
      text = Text.normalize s.toList := by
  rw [readText]
  cases fs.readFile path
  case error  => simp
  case ok c   =>
    simp only
    cases hd : Text.decodeUtf8 c <;> simp [hd, eq_comm]

theorem loadCases_eq_ok_iff {reading : CaseFile.Reading} : fs.loadCases path = .ok reading ↔
    ∃ text, fs.readText path = .ok text ∧ CaseFile.read text = .ok reading := by
  rw [loadCases]
  cases fs.readText path
  case error  => simp
  case ok t   => cases h : CaseFile.read t <;> simp [h, Except.mapError]

theorem loadRenames_eq_ok_iff {maps : Table Int RenameMap} : fs.loadRenames path = .ok maps ↔
    ∃ text, fs.readText path = .ok text ∧ RenameFile.read path text = .ok maps := by
  rw [loadRenames]
  cases fs.readText path
  case error  => simp
  case ok t   => cases h : RenameFile.read path t <;> simp [h]

theorem loadRenames_eq_error_iff {fault : RenameFile.Fault} :
    fs.loadRenames path = .error (.renames fault) ↔
      ∃ text, fs.readText path = .ok text ∧ RenameFile.read path text = .error fault := by
  rw [loadRenames]
  cases fs.readText path
  case error  => simp
  case ok t   => cases h : RenameFile.read path t <;> simp [h]

namespace Alters

variable {o : CommandLine.Options}

theorem readText_eq_ok_iff (h : fs.Alters keys fs') (hk : ∀ key ∈ keys, fs.key? path ≠ some key) :
    fs'.readText path = .ok text ↔ fs.readText path = .ok text := by
  simp only [FileSystem.readText_eq_ok_iff, h.readFile_eq_ok_iff hk]

end Alters
end FileSystem

namespace CommandLine

variable {o : Options} {fs fs' : FileSystem} {config : Log.Config} {out : Log.Output}
  {path s : String} {keys : Set String} {outcomes : List Outcome}

-- Neither input nor output nor the rename maps are in the file with a log or where its older parts
-- are.
def Apart (o : Options) (config : Log.Config) (fs : FileSystem) : Prop :=
  ∀ log ∈ config.paths, ∀ path, path ∈ o.input ∨ path ∈ o.output ∨ path ∈ o.renameMap →
    fs.key? path ≠ fs.key? log

theorem Apart.key?_ne (h : Apart o config fs)
    (hp : path ∈ o.input ∨ path ∈ o.output ∨ path ∈ o.renameMap) :
    ∀ key ∈ fs.keysOf config.paths, fs.key? path ≠ some key := by
  rintro key ⟨log, hl, hk⟩ he
  exact h log hl path hp (he.trans hk.symm)

-- What a run reads.
structure Reads (o : Options) (fs : FileSystem) (input : String) (cases : List TestCase)
    (maps : Table Int RenameMap) : Prop where
  cases : ∃ notices, fs.loadCases input = .ok ⟨cases, notices⟩
  maps  : renames o fs = .ok maps

-- The rename maps nest deeper than they can be read.
def TooDeep (o : Options) (fs : FileSystem) : Prop :=
  ∃ k text, renames o fs = .error (.renames (.json (.tooDeep k) text))

section

variable (h : fs.Alters (fs.keysOf config.paths) fs') (ha : Apart o config fs)

include h ha in
-- Records go to the log alone, so what is read does not depend on when it is read.
theorem renames_eq_ok_iff {maps : Table Int RenameMap} :
    renames o fs' = .ok maps ↔ renames o fs = .ok maps := by
  rw [renames, renames]
  cases hf : o.renameMap.filter (!·.isEmpty)
  case none      => rfl
  case some path =>
    have hk := ha.key?_ne (.inr (.inr (Option.filter_eq_some_iff.mp hf).left))
    simp only [FileSystem.loadRenames_eq_ok_iff, h.readText_eq_ok_iff hk]

include h ha in
theorem tooDeep_iff : TooDeep o fs' ↔ TooDeep o fs := by
  rw [TooDeep, TooDeep, renames, renames]
  cases hf : o.renameMap.filter (!·.isEmpty)
  case none      => rfl
  case some path =>
    have hk := ha.key?_ne (.inr (.inr (Option.filter_eq_some_iff.mp hf).left))
    simp only [FileSystem.loadRenames_eq_error_iff, h.readText_eq_ok_iff hk]

end

def outputFile (o : Options) : Option String :=
  o.output.filter (!·.isEmpty)

-- The status of a run whose report is out.
def batchStatus (outcomes : List Outcome) : Nat :=
  if outcomes.any (·.failed) then 1 else 0

theorem batchStatus_eq :
    (if (outcomes.filter (·.failed)).length = 0 then 0 else 1) = batchStatus outcomes := by
  simp only [batchStatus, List.length_eq_zero_iff, List.filter_eq_nil_iff, ← List.any_eq_false]
  cases outcomes.any (·.failed) <;> rfl

-- The log is apart from where it was altered before, and records alter nothing else.
theorem alters_emit {records : List Log.Record} (h : fs.Alters keys out.files)
    (hp : config.Plain fs) (hk : fs.keysOf config.paths ⊆ keys) :
    fs.Alters keys (config.emit out records).files :=
  h.trans ((config.emit_alters (hp.of_alters h)).mono (h.keysOf_eq ▸ hk))

section

variable (h : fs.Alters (fs.keysOf config.paths) out.files) (hp : config.Plain fs)

include h hp

theorem publish_printed (ho : outputFile o = none) (hs : Report.text outcomes = points s) :
    ∃ r, publish o config out outcomes = .ok r ∧ r.status = batchStatus outcomes ∧ r.stdout = s ∧
      fs.Alters (fs.keysOf config.paths) r.files := by
  rw [outputFile] at ho
  simp only [publish, ho, Text.string?_eq_ok_iff.mpr hs]
  exact ⟨_, rfl, batchStatus_eq, rfl, alters_emit h hp subset_rfl⟩

omit hp in
-- The output is there and empty once it is opened.
theorem exists_created (ha : Apart o config fs) (ho : path ∈ o.output) (hc : fs.Opens path) :
    ∃ created, out.files.createFile path = .ok created ∧
      fs.Alters (fs.keysOf (path :: config.paths)) created ∧
      (created.content? path).getD .empty = .empty ∧
      (fs.find path = .ok .nullDevice ∨ (created.content? path).isSome) := by
  have ⟨opened, hf⟩ := h.opens_iff.mpr hc
  have hc : out.files.createFile path = .ok (opened.setContent path .empty) :=
    FileSystem.createFile_eq_ok_iff.mpr ⟨opened, hf, rfl⟩
  have hp : [path] ⊆ path :: config.paths := List.cons_subset_cons path (List.nil_subset _)
  have hw : fs.Alters (fs.keysOf (path :: config.paths)) (opened.setContent path .empty) :=
    (h.mono (FileSystem.keysOf_mono (List.subset_cons_self _ _))).trans_keysOf
      ((FileSystem.createFile_alters hc).mono (FileSystem.keysOf_mono hp))
  have hn : Node.nullDevice ≠ .directory := nofun
  refine ⟨_, hc, hw, ?_⟩
  cases FileSystem.content?_of_createFile hc
  case inl hd =>
    have ⟨hd, he⟩ := hd
    have hc : out.files.content? path = none := by rw [FileSystem.content?, hd]
    rw [he, hc]
    exact ⟨rfl, .inl ((h.find_eq_ok_iff (ha.key?_ne (.inr (.inl ho))) hn).mp hd)⟩
  case inr he => rw [he]; exact ⟨rfl, .inr rfl⟩

theorem publish_unopened (outcomes : List Outcome) (ho : outputFile o = some path)
    (hc : ¬fs.Opens path) (hn : '\x00' ∉ path.toList) :
    ∃ r, publish o config out outcomes = .ok r ∧ r.status = 2 ∧ r.stdout = "" ∧
      fs.Alters (fs.keysOf config.paths) r.files := by
  rw [outputFile] at ho
  simp only [publish, ho]
  cases hf : out.files.openFile path
  case ok      => exact absurd (h.opens_iff.mp ⟨_, hf⟩) hc
  case error e =>
    have hc : e.cause ≠ .nullCharacter := (FileSystem.cause_of_openFile hf).not.mpr hn
    simp only [FileSystem.createFile, hf, Except.map, if_neg hc]
    exact ⟨_, rfl, rfl, rfl, alters_emit h hp subset_rfl⟩

omit h in
-- What was written to the output is still there after the last record.
theorem content?_emit {written : FileSystem} {content : ByteArray} {records : List Log.Record}
    (ha : Apart o config fs) (ho : path ∈ o.output)
    (hw : fs.Alters (fs.keysOf (path :: config.paths)) written)
    (hc : written.content? path = some content) :
    (config.emit { out with files := written } records).files.content? path = some content := by
  refine ((config.emit_alters (hp.of_alters hw)).content?_eq ?_).trans hc
  rw [hw.keysOf_eq, hw.key?_eq]
  exact ha.key?_ne (.inr (.inl ho))

section

variable (ha : Apart o config fs) (ho : outputFile o = some path) (hc : fs.Opens path)

include ha ho hc

theorem publish_written (hs : Report.text outcomes = points s) (hf : fs.Fits path s.toUTF8.size) :
    ∃ r, publish o config out outcomes = .ok r ∧ r.status = batchStatus outcomes ∧ r.stdout = "" ∧
      (fs.find path = .ok .nullDevice ∨ r.files.content? path = some s.toUTF8) ∧
      fs.Alters (fs.keysOf (path :: config.paths)) r.files := by
  have hm : path ∈ o.output := (Option.filter_eq_some_iff.mp ho).left
  have ⟨created, hcreated, hw, he, hd⟩ := exists_created h ha hm hc
  have hset : fs.Alters (fs.keysOf (path :: config.paths)) (created.setContent path s.toUTF8) :=
    hw.trans_keysOf (FileSystem.setContent_alters.mono (FileSystem.keysOf_mono (by simp)))
  rw [outputFile] at ho
  simp only [publish, ho, hcreated, Text.string?_eq_ok_iff.mpr hs,
    FileSystem.appendFile_of_fits he (hw.fits_iff.mpr hf)]
  refine ⟨_, rfl, batchStatus_eq, rfl, hd.imp_right fun hd => ?_, alters_emit hset hp ?_⟩
  case refine_1 => exact content?_emit hp ha hm hset (FileSystem.content?_setContent hd)
  case refine_2 => exact FileSystem.keysOf_mono (List.subset_cons_self _ _)

-- What the output takes of the report is its beginning.
theorem publish_unwritten (hs : Report.text outcomes = points s)
    (hf : ¬fs.Fits path s.toUTF8.size) :
    ∃ r, publish o config out outcomes = .ok r ∧ r.status = 2 ∧ r.stdout = "" ∧
      (fs.find path = .ok .nullDevice ∨ ∃ k < s.toUTF8.size,
        r.files.content? path = some (s.toUTF8.extract 0 k)) ∧
      fs.Alters (fs.keysOf (path :: config.paths)) r.files := by
  have hm : path ∈ o.output := (Option.filter_eq_some_iff.mp ho).left
  have ⟨created, hcreated, hw, he, hd⟩ := exists_created h ha hm hc
  have ⟨k, e, hk, happend⟩ := FileSystem.appendFile_of_not_fits he (hw.fits_iff.not.mpr hf)
  have hset : fs.Alters (fs.keysOf (path :: config.paths))
      (created.setContent path (s.toUTF8.extract 0 k)) :=
    hw.trans_keysOf (FileSystem.setContent_alters.mono (FileSystem.keysOf_mono (by simp)))
  rw [outputFile] at ho
  simp only [publish, ho, hcreated, Text.string?_eq_ok_iff.mpr hs, happend]
  refine ⟨_, rfl, rfl, rfl, hd.imp_right fun hd => ⟨k, hk, ?_⟩, alters_emit hset hp ?_⟩
  case refine_1 => exact content?_emit hp ha hm hset (FileSystem.content?_setContent hd)
  case refine_2 => exact FileSystem.keysOf_mono (List.subset_cons_self _ _)

end

end

theorem publish_nullCharacter (ho : outputFile o = some path) (hn : '\x00' ∈ path.toList) :
    publish o config out outcomes = .error (.output ⟨.nullCharacter, path⟩) := by
  rw [outputFile] at ho
  have ht : out.files.target path = .error .nullCharacter :=
    FileSystem.target_eq_error_nullCharacter_iff.mpr hn
  simp only [publish, ho, FileSystem.createFile, FileSystem.openFile, ht]
  rfl

-- A report with a surrogate is not put out, unless there is no output to be opened.
theorem publish_surrogate (h : fs.Alters keys out.files)
    (hc : ∀ path, outputFile o = some path → fs.Opens path)
    (hs : ∀ s, Report.text outcomes ≠ points s) :
    ∃ e, publish o config out outcomes = .error (.encoding e) := by
  have ⟨e, he⟩ := Text.exists_string?_eq_error hs
  refine ⟨e, ?_⟩
  simp only [publish, he]
  cases ho : o.output.filter (!·.isEmpty)
  case none      => rfl
  case some path =>
    have ⟨opened, hf⟩ := h.opens_iff.mpr (hc path ho)
    simp only [FileSystem.createFile, hf, Except.map]

end CommandLine
end RightLinear
