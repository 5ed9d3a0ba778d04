import RightLinear.FileSystem
import RightLinear.Log.Record

namespace RightLinear.Log

-- The logger lets records of its level and above pass; the console shows those that also reach the
-- console's level, a file takes all that pass. With a file the logger's level is the lowest.
-- Without console and file, warnings and above are shown bare.
structure Config where
  level : Level
  console : Option Level
  file : Option String
deriving DecidableEq, Repr

-- Why a log cannot be set up; in place of a level's name there may be something else.
inductive SetupError
  | noLevel (found : String)
  | consoleLevel
  | loggerLevel
  | file
  | directory (error : FileError)
deriving DecidableEq, Repr

def SetupError.message : SetupError → String
  | noLevel found => s!"'{found}' object has no attribute 'upper'"
  | consoleLevel => "Unable to configure handler 'console'"
  | loggerLevel => "Unable to configure logger '" ++ namespaceName ++ "'"
  | file => "Unable to configure handler 'file'"
  | directory e => e.message

-- What was written so far, the files and the texts on the console, and the time it is.
structure Output where
  files : FileSystem
  console : String
  time : Time
deriving DecidableEq

namespace Config

-- Capital letters for a level's name; a dotless i and a long s have ASCII ones.
def upper (c : Char) : Char :=
  if c = 'ı' then 'I' else if c = 'ſ' then 'S' else c.toUpper

def level? (name : String) : Option Level :=
  Level.ofName? (.ofList (name.toList.map upper))

-- The configuration for a level's name, perhaps a log file, and perhaps the console. The log file's
-- directory and the file are made if they are not there.
def setup (levelName : String) (logFile : Option String) (useConsole : Bool) (fs : FileSystem) :
    Except SetupError (Config × FileSystem) := do
  let logFile := (logFile.filter (!·.isEmpty)).map FileSystem.tidy
  let fs ← match logFile with
    | none => pure fs
    | some path =>
      match fs.makeOnDemand (FileSystem.lineage (FileSystem.parent path)) with
      | (fs, none) => pure fs
      | (_, some e) => throw (.directory e)
  let console ← if useConsole then
      match level? levelName with
      | some level => pure (some level)
      | none => throw .consoleLevel
    else pure none
  match logFile with
  | some path =>
    match fs.openFile path with
    | .ok fs => return (⟨.debug, console, some path⟩, fs)
    | .error _ => throw .file
  | none =>
    match level? levelName with
    | some level => return (⟨level, console, none⟩, fs)
    | none => throw .loggerLevel

-- A logger without a level of its own lets warnings pass.
def passes (c : Config) (r : Record) : Bool :=
  (if c.level = .notSet then Level.warning else c.level) ≤ r.level

def consoleText (c : Config) (r : Record) : String :=
  match c.console, c.file with
  | some level, _ => if level ≤ r.level then r.brief else ""
  | none, some _ => ""
  | none, none => if .warning ≤ r.level then r.message ++ "\n" else ""

-- Where the older parts of a log are, the latest one first.
def backups (path : String) : List String :=
  (List.range 5).map fun k => s!"{path}.{k + 1}"

-- The paths of the log file and its older parts.
def paths (c : Config) : List String :=
  c.file.toList.flatMap fun path => path :: backups path

-- A line would make the log ten megabytes large. Of the line the characters count.
def isFull (files : FileSystem) (path : String) (text : String) : Bool :=
  match files.content? path with
  | some content => 10485760 ≤ content.size + text.length
  | none => false

-- Moves what is at each of some paths to the one after it, beginning with the last; tells whether
-- all that was there could be moved. What was moved stays moved.
def shift (files : FileSystem) : List String → FileSystem × Bool
  | old :: new :: rest =>
    match shift files (new :: rest) with
    | (files, false) => (files, false)
    | (files, true) =>
      if files.contains old then
        match files.move old new with
        | .ok files => (files, true)
        | .error _ => (files, false)
      else (files, true)
  | _ => (files, true)

-- Writes a line to the log file. A full one is moved aside first, and if it cannot be moved, the
-- line is lost.
def write (path : String) (files : FileSystem) (text : String) : FileSystem :=
  if isFull files path text then
    match shift files (path :: backups path) with
    | (files, false) => files
    | (files, true) =>
      match files.openFile path with
      | .ok files => (files.appendFile path text.toUTF8).1
      | .error _ => files
  else (files.appendFile path text.toUTF8).1

def emit (c : Config) (out : Output) (records : List Record) : Output :=
  let passed := records.filter c.passes
  { out with
    files := match c.file with
      | none => out.files
      | some path => (passed.map (·.detailed out.time)).foldl (write path) out.files
    console := out.console ++ String.join (passed.map c.consoleText) }

end Config
end RightLinear.Log
