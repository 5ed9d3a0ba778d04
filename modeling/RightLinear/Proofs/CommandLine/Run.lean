import RightLinear.Proofs.CommandLine.Publish

namespace RightLinear.CommandLine

open Text (points)

variable {o : Options} {files opened : FileSystem} {config : Log.Config}
  {texts : List String} {input path : String} {cases : List TestCase} {maps : Table Int RenameMap}
  (renderer : Diagram.Renderer) (time : Log.Time) (entries : List Terminal.Entry)

-- A run over the test cases of a file, and the files once its log is set up.
structure Prepared (texts : List String) (files : FileSystem) (o : Options) (input : String)
    (config : Log.Config) (opened : FileSystem) : Prop where
  parsed : Options.parse texts = .ok o
  alone  : o.interactive = false
  given  : o.input = some input
  named  : input.isEmpty = false
  logged : setLog o files = .ok (config, opened)
  apart  : Apart o config opened
  plain  : config.Plain opened

theorem keeps_of_setLog (h : setLog o files = .ok (config, opened)) :
    files.Keeps (opened.keysOf config.paths) opened := by
  rw [setLog] at h
  split at h
  case h_1            => cases h
  case h_2 level _    =>
    cases hs : Log.Config.setup level o.logFile true files <;> rw [hs] at h <;> cases h
    exact Log.Config.setup_keeps hs

theorem Prepared.run_eq (h : Prepared texts files o input config opened) :
    run renderer time texts files entries = runFile o config ⟨opened, "", time⟩ input := by
  have hf : o.input.filter (!·.isEmpty) = some input :=
    Option.filter_eq_some_iff.mpr ⟨h.given, congrArg not h.named⟩
  simp [run, h.parsed, h.logged, h.alone, hf]

-- What can be read is read, and nothing was written by then but the log.
theorem Prepared.run_of_reads (h : Prepared texts files o input config opened)
    (hr : Reads o opened input cases maps) :
    ∃ out, opened.Alters (opened.keysOf config.paths) out.files ∧
      run renderer time texts files entries = publish o config out (runBatch cases maps) := by
  have ⟨notices, hc⟩ := hr.cases
  rw [h.run_eq renderer time entries]
  simp only [runFile, hc]
  generalize hout : config.emit ⟨opened, "", time⟩ (notices.map (·.record)) = out
  have ha : opened.Alters (opened.keysOf config.paths) out.files :=
    hout ▸ alters_emit .refl h.plain subset_rfl
  simp only [(renames_eq_ok_iff ha h.apart).mpr hr.maps]
  exact ⟨_, alters_emit ha h.plain subset_rfl, rfl⟩

theorem Prepared.run_of_not_reads (h : Prepared texts files o input config opened)
    (hn : ∀ cases maps, ¬Reads o opened input cases maps) (hd : ¬TooDeep o opened) :
    ∃ r, run renderer time texts files entries = .ok r ∧ r.status = 2 ∧ r.stdout = "" ∧
      opened.Alters (opened.keysOf config.paths) r.files := by
  rw [h.run_eq renderer time entries]
  simp only [runFile]
  cases hc : opened.loadCases input
  case error e    =>
    exact ⟨_, rfl, rfl, rfl,
      alters_emit (alters_emit .refl h.plain subset_rfl) h.plain subset_rfl⟩
  case ok reading =>
    simp only
    generalize hout : config.emit ⟨opened, "", time⟩ (reading.notices.map (·.record)) = out
    have ha : opened.Alters (opened.keysOf config.paths) out.files :=
      hout ▸ alters_emit .refl h.plain subset_rfl
    split
    case h_1 hm => exact absurd ((tooDeep_iff ha h.apart).mp ⟨_, _, hm⟩) hd
    case h_2    => exact ⟨_, rfl, rfl, rfl, alters_emit ha h.plain subset_rfl⟩
    case h_3 hm => exact absurd ⟨⟨_, hc⟩, (renames_eq_ok_iff ha h.apart).mp hm⟩ (hn _ _)

theorem Prepared.run_nullCharacter (h : Prepared texts files o input config opened)
    (hr : Reads o opened input cases maps) (ho : outputFile o = some path)
    (hn : '\x00' ∈ path.toList) :
    run renderer time texts files entries = .error (.output ⟨.nullCharacter, path⟩) := by
  have ⟨out, _, he⟩ := h.run_of_reads renderer time entries hr
  exact he.trans (publish_nullCharacter ho hn)

theorem Prepared.run_surrogate (h : Prepared texts files o input config opened)
    (hr : Reads o opened input cases maps)
    (hc : ∀ path, outputFile o = some path → opened.Opens path)
    (hs : ∀ s, Report.text (runBatch cases maps) ≠ points s) :
    ∃ e, run renderer time texts files entries = .error (.encoding e) := by
  have ⟨out, ha, he⟩ := h.run_of_reads renderer time entries hr
  have ⟨e, hp⟩ : ∃ e, publish o config out (runBatch cases maps) = .error (.encoding e) :=
    publish_surrogate ha hc hs
  exact ⟨e, he.trans hp⟩

-- How a run ends, told from what it reads and from whether its output can be opened and can hold
-- the report. It breaks off where the name of the output holds a null character or the report a
-- surrogate.
structure Agrees (o : Options) (files opened : FileSystem) (input : String) (config : Log.Config)
    (ended : Except Failure Result) : Prop where
  unread (hn : ∀ cases maps, ¬Reads o opened input cases maps) (hd : ¬TooDeep o opened) :
    ∃ r, ended = .ok r ∧ r.status = 2 ∧ r.stdout = "" ∧
      files.Keeps (opened.keysOf config.paths) r.files
  printed (cases : List TestCase) (maps : Table Int RenameMap) (s : String)
    (hr : Reads o opened input cases maps) (ho : outputFile o = none)
    (hs : Report.text (runBatch cases maps) = points s) :
    ∃ r, ended = .ok r ∧ r.status = batchStatus (runBatch cases maps) ∧ r.stdout = s ∧
      files.Keeps (opened.keysOf config.paths) r.files
  written (cases : List TestCase) (maps : Table Int RenameMap) (path s : String)
    (hr : Reads o opened input cases maps) (ho : outputFile o = some path)
    (hc : opened.Opens path) (hs : Report.text (runBatch cases maps) = points s)
    (hf : opened.Fits path s.toUTF8.size) :
    ∃ r, ended = .ok r ∧ r.status = batchStatus (runBatch cases maps) ∧ r.stdout = "" ∧
      (opened.find path = .ok .nullDevice ∨ r.files.content? path = some s.toUTF8) ∧
      files.Keeps (opened.keysOf (path :: config.paths)) r.files
  unwritten (cases : List TestCase) (maps : Table Int RenameMap) (path s : String)
    (hr : Reads o opened input cases maps) (ho : outputFile o = some path)
    (hc : opened.Opens path) (hs : Report.text (runBatch cases maps) = points s)
    (hf : ¬opened.Fits path s.toUTF8.size) :
    ∃ r, ended = .ok r ∧ r.status = 2 ∧ r.stdout = "" ∧
      (opened.find path = .ok .nullDevice ∨ ∃ k < s.toUTF8.size,
        r.files.content? path = some (s.toUTF8.extract 0 k)) ∧
      files.Keeps (opened.keysOf (path :: config.paths)) r.files
  unopened (cases : List TestCase) (maps : Table Int RenameMap) (path : String)
    (hr : Reads o opened input cases maps) (ho : outputFile o = some path)
    (hc : ¬opened.Opens path) (hn : '\x00' ∉ path.toList) :
    ∃ r, ended = .ok r ∧ r.status = 2 ∧ r.stdout = "" ∧
      files.Keeps (opened.keysOf config.paths) r.files
  nullCharacter (cases : List TestCase) (maps : Table Int RenameMap) (path : String)
    (hr : Reads o opened input cases maps) (ho : outputFile o = some path)
    (hn : '\x00' ∈ path.toList) :
    ended = .error (.output ⟨.nullCharacter, path⟩)
  surrogate (cases : List TestCase) (maps : Table Int RenameMap)
    (hr : Reads o opened input cases maps)
    (hc : ∀ path, outputFile o = some path → opened.Opens path)
    (hs : ∀ s, Report.text (runBatch cases maps) ≠ points s) :
    ∃ e, ended = .error (.encoding e)

-- All is read before anything but the log is printed or written, and what is read is run as one
-- batch. But a run that cannot write its report does not always end with a status.
theorem Prepared.run_agrees (h : Prepared texts files o input config opened) :
    Agrees o files opened input config (run renderer time texts files entries) := by
  have hk : files.Keeps (opened.keysOf config.paths) opened := keeps_of_setLog h.logged
  have hm (path : String) : files.Keeps (opened.keysOf (path :: config.paths)) opened :=
    hk.mono (FileSystem.keysOf_mono (List.subset_cons_self _ _))
  constructor
  case unread =>
    intro hn hd
    have ⟨r, hr, hc, ht, ha⟩ := h.run_of_not_reads renderer time entries hn hd
    exact ⟨r, hr, hc, ht, hk.trans ha.keeps⟩
  case printed =>
    intro cases maps s hr ho hs
    have ⟨out, ha, he⟩ := h.run_of_reads renderer time entries hr
    have ⟨r, hr, hc, ht, ha⟩ := publish_printed ha h.plain ho hs
    exact ⟨r, he.trans hr, hc, ht, hk.trans ha.keeps⟩
  case written =>
    intro cases maps path s hr ho hc hs hf
    have ⟨out, ha, he⟩ := h.run_of_reads renderer time entries hr
    have ⟨r, hr, hc, ht, hf, ha⟩ := publish_written ha h.plain h.apart ho hc hs hf
    exact ⟨r, he.trans hr, hc, ht, hf, (hm path).trans ha.keeps⟩
  case unwritten =>
    intro cases maps path s hr ho hc hs hf
    have ⟨out, ha, he⟩ := h.run_of_reads renderer time entries hr
    have ⟨r, hr, hc, ht, hf, ha⟩ := publish_unwritten ha h.plain h.apart ho hc hs hf
    exact ⟨r, he.trans hr, hc, ht, hf, (hm path).trans ha.keeps⟩
  case unopened =>
    intro cases maps path hr ho hc hn
    have ⟨out, ha, he⟩ := h.run_of_reads renderer time entries hr
    have ⟨r, hr, hc, ht, ha⟩ := publish_unopened ha h.plain (runBatch cases maps) ho hc hn
    exact ⟨r, he.trans hr, hc, ht, hk.trans ha.keeps⟩
  case nullCharacter => exact fun _ _ _ => h.run_nullCharacter renderer time entries
  case surrogate     => exact fun _ _ => h.run_surrogate renderer time entries

-- A working directory with some files.
def directoryOf (entries : List (String × String)) : FileSystem :=
  entries.foldl (fun fs (name, text) => fs.put ⟨.above 0, [name]⟩ (.file text.toUTF8)) .initial

-- A test case with a grammar and one without.
def inputText : String :=
  "1:\nG:\n# Alphabet\nx\n# Variables\nS\n# Start\nS\n# Rules\nS -> x\n2:\n"

def inputCases : List TestCase := [
  { id := 1
    grammars := [{
      name := "G"
      terminals := ["x"]
      nonTerminals := ["S"]
      start := some "S"
      productions := [⟨"S", "x"⟩]
      terminals_nodup := .cons nofun .nil
      terminals_unmarked := List.forall_mem_singleton.mpr (by decide +kernel) }] },
  { id := 2 }]

def inputReport : String :=
  "1:\n# States\nS A\n\n# Alphabet\nx\n\n# Start State\nS\n\n# Final States\nA\n\n" ++
  "# Transitions\nS x A\n\n" ++
  "2:\n# Error\nGrammarCountError: pass-through requires at least 1 grammar(s), got 0\n\n"

def startTime : Log.Time :=
  ⟨2024, 1, 1, 0, 0, 0⟩

theorem reads_input {o : Options} {fs : FileSystem} {maps : Table Int RenameMap}
    (ht : fs.readText "in.txt" = .ok inputText.toList)
    (hm : (renames o fs).toOption = some maps) : Reads o fs "in.txt" inputCases maps where
  cases := ⟨[], FileSystem.loadCases_eq_ok_iff.mpr ⟨_, ht, by decide +kernel⟩⟩
  maps  := eq_ok_of_toOption hm

def loggingOptions : Options where
  input   := some "in.txt"
  output  := some "out.txt"
  logFile := some "logs/run.log"

-- Before the log is set up, and after.
def loggingFiles : FileSystem :=
  directoryOf [("in.txt", inputText), ("out.txt", "old")]

def loggingOpened : FileSystem :=
  (loggingFiles.put ⟨.above 0, ["logs"]⟩ .directory).put ⟨.above 0, ["run.log", "logs"]⟩
    (.file .empty)

def loggingConfig : Log.Config :=
  ⟨.debug, some .warning, some "logs/run.log"⟩

theorem prepared_logging :
    Prepared ["in.txt", "-o", "out.txt", "--log-file", "logs/run.log"] loggingFiles loggingOptions
      "in.txt" loggingConfig loggingOpened where
  parsed := by decide +kernel
  alone  := rfl
  given  := rfl
  named  := by decide +kernel
  logged := eq_ok_of_toOption (by decide +kernel)
  apart  := by
    have hk : ∀ log ∈ loggingConfig.paths, ∀ path ∈ ["in.txt", "out.txt"],
        loggingOpened.key? path ≠ loggingOpened.key? log := by
      decide +kernel
    intro log hl path hp
    refine hk log hl path ?_
    simpa [loggingOptions, eq_comm] using hp
  plain  := by
    show ∀ path ∈ loggingConfig.paths, loggingOpened.isDirectory path = false
    decide +kernel

-- One of two test cases fails, and the report takes the place of another one.
theorem run_agrees_logging :
    Prepared ["in.txt", "-o", "out.txt", "--log-file", "logs/run.log"] loggingFiles loggingOptions
      "in.txt" loggingConfig loggingOpened ∧
    Reads loggingOptions loggingOpened "in.txt" inputCases ∅ ∧
    loggingOpened.Opens "out.txt" ∧ loggingOpened.Fits "out.txt" inputReport.toUTF8.size ∧
    ∃ r, run .undrawn startTime ["in.txt", "-o", "out.txt", "--log-file", "logs/run.log"]
        loggingFiles [] = .ok r ∧ r.status = 1 ∧ r.stdout = "" ∧
      r.files.content? "out.txt" = some inputReport.toUTF8 ∧
      loggingFiles.Keeps (loggingOpened.keysOf ("out.txt" :: loggingConfig.paths)) r.files := by
  have hr : Reads loggingOptions loggingOpened "in.txt" inputCases ∅ :=
    reads_input (by decide +kernel) (by decide +kernel)
  have ho : loggingOpened.Opens "out.txt" := ⟨loggingOpened, by decide +kernel⟩
  have hl : (loggingOpened.limitsAt "out.txt").growing = none := by decide +kernel
  have hf : loggingOpened.Fits "out.txt" inputReport.toUTF8.size := by simp [FileSystem.Fits, hl]
  have hc : ∀ p ∈ Report.text (runBatch inputCases ∅), p.char?.isSome := by decide +kernel
  have ht : Text.ofPoints (Report.text (runBatch inputCases ∅)) = inputReport := by decide +kernel
  have hs : Report.text (runBatch inputCases ∅) = points inputReport :=
    ht ▸ (Text.points_ofPoints hc).symm
  have ha : Agrees loggingOptions loggingFiles loggingOpened "in.txt" loggingConfig
      (run .undrawn startTime ["in.txt", "-o", "out.txt", "--log-file", "logs/run.log"]
        loggingFiles []) :=
    Prepared.run_agrees .undrawn startTime [] prepared_logging
  have ⟨r, he, hb, ht, hw, hk⟩ := ha.written _ _ "out.txt" inputReport hr rfl ho hs hf
  have hd : loggingOpened.find "out.txt" ≠ .ok .nullDevice := by decide +kernel
  have h₁ : batchStatus (runBatch inputCases ∅) = 1 := by decide +kernel
  exact ⟨prepared_logging, hr, ho, hf, r, he, hb.trans h₁, ht, hw.resolve_left hd, hk⟩

def brokenFiles : FileSystem :=
  directoryOf [("in.txt", inputText), ("r.json", "\x7b\"1\": \x7b\"S\": \"\\ud800\"\x7d\x7d")]

def plainConfig : Log.Config :=
  ⟨.warning, some .warning, none⟩

theorem prepared_plain {texts : List String} {o : Options} (hp : Options.parse texts = .ok o)
    (hi : o.input = some "in.txt") (ha : o.interactive = false)
    (hl : (setLog o brokenFiles).toOption = some (plainConfig, brokenFiles)) :
    Prepared texts brokenFiles o "in.txt" plainConfig brokenFiles where
  parsed := hp
  alone  := ha
  given  := hi
  named  := by decide +kernel
  logged := eq_ok_of_toOption hl
  apart  := nofun
  plain  := nofun

def nullOptions : Options where
  input  := some "in.txt"
  output := some "out\x00.txt"

def surrogateOptions : Options where
  input     := some "in.txt"
  output    := some "out.txt"
  renameMap := some "r.json"

def surrogateMaps : Table Int RenameMap :=
  .ofList [(1, .ofList [(points "S", [.ofCode 0xd800])])]

-- An output that cannot be opened does not always make the status two, and one that can be opened
-- does not always get the report.
theorem not_run_agrees_breaking :
    (Prepared ["in.txt", "-o", "out\x00.txt"] brokenFiles nullOptions "in.txt" plainConfig
        brokenFiles ∧
      Reads nullOptions brokenFiles "in.txt" inputCases ∅ ∧
      outputFile nullOptions = some "out\x00.txt" ∧ ¬brokenFiles.Opens "out\x00.txt" ∧
      ¬∃ r, run .undrawn startTime ["in.txt", "-o", "out\x00.txt"] brokenFiles [] = .ok r ∧
        r.status = 2) ∧
    (Prepared ["in.txt", "-o", "out.txt", "--rename-map", "r.json"] brokenFiles surrogateOptions
        "in.txt" plainConfig brokenFiles ∧
      Reads surrogateOptions brokenFiles "in.txt" inputCases surrogateMaps ∧
      outputFile surrogateOptions = some "out.txt" ∧ brokenFiles.Opens "out.txt" ∧
      ¬∃ r, run .undrawn startTime ["in.txt", "-o", "out.txt", "--rename-map", "r.json"]
          brokenFiles [] = .ok r ∧
        r.status = batchStatus (runBatch inputCases surrogateMaps)) := by
  have ht : brokenFiles.readText "in.txt" = .ok inputText.toList := by decide +kernel
  constructor
  case left =>
    have h : Prepared ["in.txt", "-o", "out\x00.txt"] brokenFiles nullOptions "in.txt" plainConfig
        brokenFiles :=
      prepared_plain (by decide +kernel) rfl rfl (by decide +kernel)
    have hr : Reads nullOptions brokenFiles "in.txt" inputCases ∅ :=
      reads_input ht (by decide +kernel)
    have ho : outputFile nullOptions = some "out\x00.txt" := by decide +kernel
    refine ⟨h, hr, ho, ?_, ?_⟩
    case refine_1 =>
      rintro ⟨fs, hw⟩
      have hn : (brokenFiles.openFile "out\x00.txt").toOption = none := by decide +kernel
      rw [hw] at hn
      cases hn
    case refine_2 =>
      rintro ⟨r, he, _⟩
      have hb := h.run_nullCharacter .undrawn startTime [] hr ho (by decide +kernel)
      cases hb.symm.trans he
  case right =>
    have h : Prepared ["in.txt", "-o", "out.txt", "--rename-map", "r.json"] brokenFiles
        surrogateOptions "in.txt" plainConfig brokenFiles :=
      prepared_plain (by decide +kernel) rfl rfl (by decide +kernel)
    have hr : Reads surrogateOptions brokenFiles "in.txt" inputCases surrogateMaps :=
      reads_input ht (by decide +kernel)
    have ho : outputFile surrogateOptions = some "out.txt" := by decide +kernel
    have hp : brokenFiles.Opens "out.txt" :=
      ⟨brokenFiles.put ⟨.above 0, ["out.txt"]⟩ (.file .empty), by decide +kernel⟩
    have hs (s : String) : Report.text (runBatch inputCases surrogateMaps) ≠ points s := by
      intro he
      have hm : .ofCode 0xd800 ∈ Report.text (runBatch inputCases surrogateMaps) := by
        decide +kernel
      rw [he, points, List.mem_map] at hm
      obtain ⟨c, _, hc⟩ := hm
      cases hc
    have hc (path : String) (he : outputFile surrogateOptions = some path) :
        brokenFiles.Opens path :=
      Option.some.inj (ho.symm.trans he) ▸ hp
    refine ⟨h, hr, ho, hp, ?_⟩
    rintro ⟨r, he, _⟩
    obtain ⟨e, hb⟩ := h.run_surrogate .undrawn startTime [] hr hc hs
    cases hb.symm.trans he

end RightLinear.CommandLine
