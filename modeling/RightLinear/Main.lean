import RightLinear.CommandLine.Run
import Std.Time.Zoned

namespace RightLinear.Main

open CommandLine (Options)

def now : IO Log.Time := do
  let t ← Std.Time.PlainDateTime.now
  return ⟨t.year.toInt.toNat, t.month.val.toNat, t.day.val.toNat, t.hour.val.toNat,
    t.minute.val.toNat, t.second.val.toNat⟩

-- Takes in what is at a path, a file or a directory.
def take (files : FileSystem) (path : String) : IO FileSystem := do
  match ← (IO.FS.readBinFile path).toBaseIO with
  | .ok content => return (files.writeFile path content).1
  | .error (.inappropriateType ..) => return (files.makeMissing (FileSystem.lineage path)).1
  | .error (.permissionDenied _ code details) =>
    return (files.writeFile path .empty).1.limit path { reading := some ⟨code.toNat, details⟩ }
  | .error _ => return files

-- Takes in what is at a path and the directory that it leads into.
def fetch (files : FileSystem) (path : String) : IO FileSystem := do
  take (← take files (FileSystem.parent path)) path

-- Writes those of the named files that are new or changed.
def store (named : List String) (before after : FileSystem) : IO Unit := do
  for path in named do
    match after.content? path with
    | none => pure ()
    | some content =>
      if before.content? path ≠ some content then
        let directory := FileSystem.parent path
        unless directory.isEmpty do IO.FS.createDirAll directory
        IO.FS.writeBinFile path content

-- The log file that the options name, and its older parts.
def logs (o : Options) : List String :=
  o.logFile.toList.flatMap fun path => path :: Log.Config.backups path

-- The paths that the options name.
def paths (o : Options) : List String :=
  o.input.toList ++ o.output.toList ++ o.renameMap.toList ++ logs o

-- Goes on with a dialogue; `logs` are the paths of its log files.
partial def talk (input output errors : IO.FS.Stream) (logs : List String) (d : Terminal.Dialogue) :
    IO Unit := do
  output.putStr "> "
  output.flush
  let line ← input.getLine
  if line.isEmpty then output.putStr Terminal.farewell
  else
    let named := (Text.words line.toList).map String.ofList
    let files ← named.foldlM fetch d.output.files
    let (next, said) := { d with output := ⟨files, "", ← now⟩ : Terminal.Dialogue }.turn (.line line)
    output.putStr said
    match next with
    | none => return
    | some d =>
      errors.putStr d.output.console
      store (named ++ logs) files d.output.files
      talk input output errors logs d

def finish (output errors : IO.FS.Stream) (named : List String) (before : FileSystem) :
    Except CommandLine.Failure CommandLine.Result → IO UInt32
  | .error e => do
    errors.putStr (e.message ++ "\n")
    return 1
  | .ok r => do
    store named before r.files
    output.putStr r.stdout
    errors.putStr r.stderr
    return r.status.toUInt32

-- The files that a run or a command names are read before it and written after it.
def run (args : List String) : IO UInt32 := do
  let output ← IO.getStdout
  let errors ← IO.getStderr
  match Options.parse args with
  | .error _ => finish output errors [] .initial (CommandLine.run .undrawn (← now) args .initial [])
  | .ok o =>
    let named := paths o
    let before ← named.foldlM fetch .initial
    if o.interactive then
      match CommandLine.setLog o before with
      | .error e => finish output errors named before (.error e)
      | .ok (config, files) =>
        store named before files
        output.putStr Terminal.banner
        talk (← IO.getStdin) output errors (logs o)
          { renderer := .undrawn, config, output := ⟨files, "", ← now⟩ }
        return 0
    else finish output errors named before (CommandLine.run .undrawn (← now) args before [])

end RightLinear.Main

def main (args : List String) : IO UInt32 :=
  RightLinear.Main.run args
