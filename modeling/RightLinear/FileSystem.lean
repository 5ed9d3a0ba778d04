import RightLinear.Table
import RightLinear.Text.Blank
import RightLinear.Text.Lines
import RightLinear.Text.Utf8

namespace RightLinear

-- An error of the system, by its number and its text.
structure SystemError where
  number : Nat
  text : String
deriving DecidableEq, Repr

def SystemError.message (e : SystemError) : String :=
  s!"[Errno {e.number}] {e.text}"

-- Why a path cannot be used. The system may refuse it for a reason of its own.
inductive FileCause
  | noEntry
  | exists
  | notDirectory
  | isDirectory
  | nameTooLong
  | nullCharacter
  | refused (error : SystemError)
deriving DecidableEq, Repr

-- A null character is found before the system is asked.
def FileCause.systemError? : FileCause → Option SystemError
  | noEntry => some ⟨2, "No such file or directory"⟩
  | .exists => some ⟨17, "File exists"⟩
  | notDirectory => some ⟨20, "Not a directory"⟩
  | isDirectory => some ⟨21, "Is a directory"⟩
  | nameTooLong => some ⟨36, "File name too long"⟩
  | nullCharacter => none
  | refused e => some e

structure FileError where
  cause : FileCause
  path : String
deriving DecidableEq, Repr

def FileError.message (e : FileError) : String :=
  match e.cause.systemError? with
  | some error => s!"{error.message}: {Text.quoted e.path}"
  | none => "embedded null byte"

instance decEqBytes : DecidableEq ByteArray := fun a b =>
  decidable_of_iff (a.data = b.data)
    ⟨fun h => by cases a; cases b; simp_all, congrArg ByteArray.data⟩

inductive Node
  | file (content : ByteArray)
  | directory
  -- nothing is read from the null device, and what is written to it is gone
  | nullDevice
deriving DecidableEq

-- The directory that a place is counted from: the root, or one so many levels above the working
-- directory.
inductive Base
  | root
  | above (levels : Nat)
deriving DecidableEq, Repr

-- A place as the names that lead to it from its base, the last one first.
structure Place where
  base : Base
  names : List String
deriving DecidableEq, Repr

namespace Place

def child (place : Place) (name : String) : Place :=
  { place with names := name :: place.names }

-- The directory that holds a place; the root is its own parent.
def up : Place → Place
  | ⟨base, _ :: names⟩ => ⟨base, names⟩
  | ⟨.root, []⟩ => ⟨.root, []⟩
  | ⟨.above levels, []⟩ => ⟨.above (levels + 1), []⟩

-- The shortest path to a place. No two places below their bases have one path.
def path (place : Place) : String :=
  let start := match place.base with
    | .root => [""]
    | .above levels => List.replicate levels ".."
  "/".intercalate (start ++ place.names.reverse)

end Place

-- What the system refuses at a place, whatever is there, and with which error: to read a file, to
-- write or make one, and to let one grow beyond so many bytes.
structure Limits where
  reading : Option SystemError := none
  writing : Option SystemError := none
  growing : Option (Nat × SystemError) := none
deriving DecidableEq, Repr

-- The nodes and the limits of places, by the shortest paths to them. The bases are directories and
-- have no entries.
structure FileSystem where
  nodes : Table String Node := ∅
  limits : Table String Limits := ∅
deriving DecidableEq, Inhabited

namespace FileSystem

-- The file system before anything is made.
def initial : FileSystem := {}

def node? (fs : FileSystem) (place : Place) : Option Node :=
  if place.names.isEmpty then some .directory else fs.nodes.find? place.path

def put (fs : FileSystem) (place : Place) (node : Node) : FileSystem :=
  { fs with nodes := fs.nodes.insert place.path node }

-- The pieces of a path between its slashes; some may be empty.
def pieces (path : String) : List String :=
  (Text.split (· = '/') path.toList).map String.ofList

-- The path of the directory that a path leads into; empty if there is no other name.
def parent (path : String) : String :=
  "/".intercalate ((pieces path).dropLast.reverse.dropWhile (·.isEmpty)).reverse

-- A path and those of the directories on its way, the longest first.
def lineage (path : String) : List String :=
  let ps := pieces path
  (List.range ps.length).reverse.filterMap fun k =>
    let front := ps.take (k + 1)
    if front.getLast? = some "" then none else some ("/".intercalate front)

def isAbsolute (path : String) : Bool :=
  path.toList.head? = some '/'

-- A path without what does not change the place it leads to: empty names and single dots.
def tidy (path : String) : String :=
  let names := (pieces path).filter fun name => !name.isEmpty && name ≠ "."
  (if isAbsolute path then "/" else "") ++ "/".intercalate names

def isTooLong (name : String) : Bool :=
  255 < name.utf8ByteSize

-- The directory that a name leads to from another one.
def enter (fs : FileSystem) (place : Place) (name : String) : Except FileCause Place :=
  if name = "." then .ok place
  else if name = ".." then .ok place.up
  else if isTooLong name then .error .nameTooLong
  else match fs.node? (place.child name) with
    | some .directory => .ok (place.child name)
    | some _ => .error .notDirectory
    | none => .error .noEntry

-- Where a path leads: the directory before its last name, that name unless it is one of the dots,
-- and whether a slash follows it.
structure Target where
  directory : Place
  name : Option String
  slashed : Bool
deriving DecidableEq, Repr

def target (fs : FileSystem) (path : String) : Except FileCause Target :=
  if '\x00' ∈ path.toList then .error .nullCharacter
  else if path.isEmpty then .error .noEntry
  else if 4096 ≤ path.utf8ByteSize then .error .nameTooLong
  else do
    let names := (pieces path).filter (!·.isEmpty)
    let start : Place := ⟨if isAbsolute path then .root else .above 0, []⟩
    let directory ← names.dropLast.foldlM fs.enter start
    match names.getLast? with
    | none => return ⟨directory, none, false⟩
    | some name =>
      if name = "." || name = ".." then return ⟨← fs.enter directory name, none, false⟩
      else return ⟨directory, some name, path.toList.getLast? = some '/'⟩

-- The place of a target and what is there.
def look (fs : FileSystem) (t : Target) : Except FileCause (Place × Option Node) :=
  match t.name with
  | none => .ok (t.directory, some .directory)
  | some name =>
    if isTooLong name then .error .nameTooLong
    else .ok (t.directory.child name, fs.node? (t.directory.child name))

-- What is at a path. A slash after the last name asks for a directory.
def find (fs : FileSystem) (path : String) : Except FileCause Node := do
  let t ← fs.target path
  match ← fs.look t with
  | (_, none) => .error .noEntry
  | (_, some .directory) => .ok .directory
  | (_, some node) => if t.slashed then .error .notDirectory else .ok node

def contains (fs : FileSystem) (path : String) : Bool :=
  (fs.find path).toOption.isSome

def isDirectory (fs : FileSystem) (path : String) : Bool :=
  (fs.find path).toOption = some .directory

-- The shortest path to what a path names, be it there or not, if it names anything in a directory.
def key? (fs : FileSystem) (path : String) : Option String :=
  match fs.target path with
  | .ok ⟨directory, some name, _⟩ => some (directory.child name).path
  | _ => none

def limitsAt (fs : FileSystem) (path : String) : Limits :=
  ((fs.key? path).bind fs.limits.find?).getD {}

def limit (fs : FileSystem) (path : String) (limits : Limits) : FileSystem :=
  match fs.key? path with
  | some key => { fs with limits := fs.limits.insert key limits }
  | none => fs

def readFile (fs : FileSystem) (path : String) : Except FileError ByteArray :=
  match fs.find path, (fs.limitsAt path).reading with
  | .error c, _ => .error ⟨c, path⟩
  | .ok .directory, _ => .error ⟨.isDirectory, path⟩
  | .ok _, some e => .error ⟨.refused e, path⟩
  | .ok .nullDevice, none => .ok .empty
  | .ok (.file content), none => .ok content

-- The content of a file, read or not; nothing else has one.
def content? (fs : FileSystem) (path : String) : Option ByteArray :=
  match fs.find path with
  | .ok (.file content) => some content
  | _ => none

def setContent (fs : FileSystem) (path : String) (content : ByteArray) : FileSystem :=
  match fs.content? path, fs.key? path with
  | some _, some key => { fs with nodes := fs.nodes.insert key (.file content) }
  | _, _ => fs

-- Opens a file for writing at its end; a file that is not there is made. No file is made at a path
-- that ends with a slash.
def openFile (fs : FileSystem) (path : String) : Except FileError FileSystem :=
  let attempt : Except FileCause FileSystem := do
    let t ← fs.target path
    if t.slashed then .error .isDirectory
    else match ← fs.look t, (fs.limitsAt path).writing with
      | (_, some .directory), _ => .error .isDirectory
      | _, some e => .error (.refused e)
      | (_, some _), none => .ok fs
      | (place, none), none => .ok (fs.put place (.file .empty))
  attempt.mapError (⟨·, path⟩)

-- Opens a file for writing at its beginning, without what was in it.
def createFile (fs : FileSystem) (path : String) : Except FileError FileSystem :=
  (fs.openFile path).map (·.setContent path .empty)

-- Writes at the end of an open file, as many of the bytes as the file can take.
def appendFile (fs : FileSystem) (path : String) (bytes : ByteArray) :
    FileSystem × Option SystemError :=
  let content := (fs.content? path).getD .empty
  match (fs.limitsAt path).growing with
  | none => (fs.setContent path (content ++ bytes), none)
  | some (size, e) =>
    if content.size + bytes.size ≤ size then (fs.setContent path (content ++ bytes), none)
    else (fs.setContent path (content ++ bytes.extract 0 (size - content.size)), some e)

-- The files after something was to be written, and what is said if not all of it could be.
def writeFile (fs : FileSystem) (path : String) (bytes : ByteArray) : FileSystem × Option String :=
  match fs.createFile path with
  | .error e => (fs, some e.message)
  | .ok fs =>
    let (fs, failure) := fs.appendFile path bytes
    (fs, failure.map (·.message))

-- The shortest path to something when a directory on the way to it has got another one.
def rebase (old new key : String) : String :=
  let inside := (old ++ "/").toList
  if inside.isPrefixOf key.toList then
    new ++ "/" ++ String.ofList (key.toList.drop inside.length)
  else key

-- Moves a file in place of one that may be written, or a directory with all that is in it.
def move (fs : FileSystem) (old new : String) : Except FileError FileSystem :=
  match fs.openFile new with
  | .error e => .error e
  | .ok _ =>
    match fs.find old, fs.key? old, fs.key? new with
    | .ok node, some k, some k' =>
      let rest := fs.nodes.erase k
      let moved := if node = .directory then
          .ofList (rest.entries.map fun (key, node) => (rebase k k' key, node))
        else rest
      .ok { fs with nodes := moved.insert k' node }
    | .error c, _, _ => .error ⟨c, old⟩
    | _, _, _ => .error ⟨.isDirectory, old⟩

def makeDirectory (fs : FileSystem) (path : String) : Except FileError FileSystem :=
  let attempt : Except FileCause FileSystem := do
    match ← fs.look (← fs.target path), (fs.limitsAt path).writing with
    | (_, some _), _ => .error .exists
    | _, some e => .error (.refused e)
    | (place, none), none => .ok (fs.put place .directory)
  attempt.mapError (⟨·, path⟩)

-- Makes a directory unless it is there.
def ensureDirectory (fs : FileSystem) (path : String) : FileSystem × Option FileError :=
  match fs.makeDirectory path with
  | .ok fs => (fs, none)
  | .error e => (fs, if fs.isDirectory path then none else some e)

-- Makes the directories of a lineage that are missing, beginning with the one highest up. What was
-- made stays, even if not all can be.
def makeMissing (fs : FileSystem) : List String → FileSystem × Option FileError
  | [] => (fs, none)
  | path :: above =>
    if above.head?.all fs.contains then fs.ensureDirectory path
    else
      let (fs, failure) := makeMissing fs above
      match failure.filter (·.cause ≠ .exists) with
      | some e => (fs, some e)
      | none => if path.endsWith "/." then (fs, none) else fs.ensureDirectory path

-- Makes the first directory of a lineage, and the ones above it only if it cannot be made without
-- them.
def makeOnDemand (fs : FileSystem) : List String → FileSystem × Option FileError
  | [] => (fs, none)
  | path :: above =>
    match fs.ensureDirectory path with
    | (fs, some e) =>
      if e.cause = .noEntry then
        match makeOnDemand fs above with
        | (fs, some e) => (fs, some e)
        | (fs, none) => fs.ensureDirectory path
      else (fs, some e)
    | (fs, none) => (fs, none)

-- Whether a shortest path leads into the working directory.
def isInside (path : String) : Bool :=
  !isAbsolute path && (pieces path).head? ≠ some ".."

-- The files in the working directory with their paths, in the order of paths.
def files (fs : FileSystem) : List (String × ByteArray) :=
  fs.nodes.entries.filterMap fun (path, node) =>
    match node with
    | .file content => if isInside path then some (path, content) else none
    | .directory | .nullDevice => none

end FileSystem

-- Why a text cannot be read from a file.
inductive ReadError
  | file (error : FileError)
  | encoding (error : Text.Utf8Error)
deriving DecidableEq, Repr

def ReadError.message : ReadError → String
  | file e => e.message
  | encoding e => e.message

-- The text of a file in UTF-8, with line feeds for all ends of lines.
def FileSystem.readText (fs : FileSystem) (path : String) : Except ReadError (List Char) :=
  match fs.readFile path with
  | .error e => .error (.file e)
  | .ok content =>
    match Text.decodeUtf8 content with
    | .error e => .error (.encoding e)
    | .ok text => .ok (Text.normalize text.toList)

end RightLinear
