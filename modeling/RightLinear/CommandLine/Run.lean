import RightLinear.CommandLine.Options
import RightLinear.Terminal.Dialogue

namespace RightLinear.CommandLine

-- The exit status of a run, its output and the files it leaves. The time shows in the log file
-- alone, which a run may read again.
structure Result where
  status : Nat
  stdout : String
  stderr : String
  files : FileSystem

-- What breaks a run off: a log that cannot be set up, an output file whose name no file can have, a
-- report that cannot be encoded, or rename maps that nest too deep.
inductive Failure
  | log (error : Log.SetupError)
  | output (error : FileError)
  | encoding (error : Text.SurrogateError)
  | renames (refusal : Json.Refusal) (text : List Char)

def Failure.message : Failure → String
  | log e => e.message
  | output e => e.message
  | encoding e => e.message
  | renames r text => r.message text

-- A run that ends before there is anything to do.
def stopped (files : FileSystem) : Stop → Result
  | .help => ⟨0, helpText, "", files⟩
  | stop => ⟨2, "", usageText ++ s!"{programName}: error: {stop.message}\n", files⟩

-- The rename maps of a run; an empty name of their file stands for none.
def renames (o : Options) (files : FileSystem) : Except LoadError (Table Int RenameMap) :=
  match o.renameMap.filter (!·.isEmpty) with
  | none => .ok ∅
  | some path => files.loadRenames path

def record (level : Log.Level) (line : Nat) (message : String) : Log.Record :=
  ⟨level, "main", line, message⟩

def finish (config : Log.Config) (out : Log.Output) (stdout : String) (status : Nat)
    (last : Log.Record) : Result :=
  let out := config.emit out [last]
  ⟨status, stdout, out.console, out.files⟩

-- Writes the report to the output file, or to the standard output without one. The file is opened
-- before the report is encoded.
def publish (o : Options) (config : Log.Config) (out : Log.Output) (outcomes : List Outcome) :
    Except Failure Result :=
  let report := Text.string? (Report.text outcomes)
  let failed := (outcomes.filter (·.failed)).length
  let status := if failed = 0 then 0 else 1
  let last := record .info 74 s!"Processed {outcomes.length} test cases, {failed} failed"
  match o.output.filter (!·.isEmpty) with
  | none =>
    match report with
    | .error e => .error (.encoding e)
    | .ok text => .ok (finish config out text status last)
  | some path =>
    let unwritten (out : Log.Output) (message : String) : Result :=
      finish config out "" 2 (record .error 68 s!"Cannot write {path}: {message}")
    match out.files.createFile path with
    | .error e =>
      if e.cause = .nullCharacter then .error (.output e) else .ok (unwritten out e.message)
    | .ok created =>
      match report with
      | .error e => .error (.encoding e)
      | .ok text =>
        match created.appendFile path text.toUTF8 with
        | (files, some e) => .ok (unwritten { out with files } e.message)
        | (files, none) => .ok (finish config { out with files } "" status last)

-- Runs the test cases of a file. The notices about them are written before the rename maps are
-- read.
def runFile (o : Options) (config : Log.Config) (out : Log.Output) (path : String) :
    Except Failure Result :=
  let unreadable (out : Log.Output) (e : LoadError) : Except Failure Result :=
    .ok (finish config out "" 2 (record .error 57 s!"Cannot read input: {e.message}"))
  match out.files.loadCases path with
  | .error e => unreadable (config.emit out (e.notices.map (·.record))) e
  | .ok reading =>
    let out := config.emit out (reading.notices.map (·.record))
    match renames o out.files with
    | .error (.renames (.json (.tooDeep k) text)) => .error (.renames (.tooDeep k) text)
    | .error e => unreadable out e
    | .ok maps =>
      let out := config.emit out (traceBatch reading.cases maps)
      publish o config out (runBatch reading.cases maps)

-- The log that the options ask for, and the files after it is set up.
def setLog (o : Options) (files : FileSystem) : Except Failure (Log.Config × FileSystem) :=
  match o.logLevel with
  | none => .error (.log (.noLevel "list"))
  | some level => (Log.Config.setup level o.logFile true files).mapError .log

def runTerminal (renderer : Diagram.Renderer) (config : Log.Config) (out : Log.Output)
    (entries : List Terminal.Entry) : Result :=
  let dialogue : Terminal.Dialogue := { renderer, config, output := out }
  let (replies, out) := dialogue.converse entries
  ⟨0, Terminal.banner ++ String.join replies, out.console, out.files⟩

-- Runs with the words of a command line.
def run (renderer : Diagram.Renderer) (time : Log.Time) (texts : List String) (files : FileSystem)
    (entries : List Terminal.Entry) : Except Failure Result :=
  match Options.parse texts with
  | .error stop => .ok (stopped files stop)
  | .ok o =>
    match setLog o files with
    | .error e => .error e
    | .ok (config, files) =>
      let out : Log.Output := ⟨files, "", time⟩
      if o.interactive then .ok (runTerminal renderer config out entries)
      else match o.input.filter (!·.isEmpty) with
        | none => .ok (stopped files .inputRequired)
        | some path => runFile o config out path

end RightLinear.CommandLine
