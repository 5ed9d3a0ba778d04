import RightLinear.Text.Digit
import RightLinear.Text.Quoted

namespace RightLinear.CommandLine

-- An option is given by its name or an unambiguous beginning of a long name; its argument follows
-- as the next word, after an equals sign, or, for a short name, at once. Short options may share
-- one word if all but the last are without arguments. After two dashes alone there are no more
-- options.
inductive Flag
  | help
  | output
  | renameMap
  | logLevel
  | logFile
  | interactive
deriving DecidableEq, Repr

namespace Flag

def all : List Flag :=
  [help, output, renameMap, logLevel, logFile, interactive]

def short? : Flag → Option Char
  | help => some 'h'
  | output => some 'o'
  | interactive => some 'i'
  | renameMap | logLevel | logFile => none

def long : Flag → String
  | help => "--help"
  | output => "--output"
  | renameMap => "--rename-map"
  | logLevel => "--log-level"
  | logFile => "--log-file"
  | interactive => "--interactive"

def takesArgument : Flag → Bool
  | help | interactive => false
  | output | renameMap | logLevel | logFile => true

-- Both names of an option, as messages give them.
def names (f : Flag) : String :=
  match f.short? with
  | some c => s!"-{c}/{f.long}"
  | none => f.long

def ofShort? (c : Char) : Option Flag :=
  all.find? (·.short? = some c)

end Flag

structure Options where
  input : Option String := none
  output : Option String := none
  renameMap : Option String := none
  logLevel : Option String := some "WARNING"
  logFile : Option String := none
  interactive : Bool := false
deriving DecidableEq, Repr

-- Why the words of the command line are not run.
inductive Stop
  | help
  | expectedArgument (flag : Flag)
  | ignoredArgument (flag : Flag) (text : String)
  | invalidChoice (level : String)
  | ambiguous (word : String) (matching : List Flag)
  | unrecognized (words : List String)
  | inputRequired
deriving DecidableEq, Repr

def logLevels : List String :=
  ["DEBUG", "INFO", "WARNING", "ERROR", "CRITICAL"]

def Stop.message : Stop → String
  | help => ""
  | expectedArgument f => s!"argument {f.names}: expected one argument"
  | ignoredArgument f text =>
    s!"argument {f.names}: ignored explicit argument {Text.quoted text}"
  | invalidChoice level =>
    s!"argument {Flag.logLevel.names}: invalid choice: {Text.quoted level} (choose from " ++
      ", ".intercalate (logLevels.map Text.quoted) ++ ")"
  | ambiguous word flags =>
    s!"ambiguous option: {word} could match " ++ ", ".intercalate (flags.map Flag.long)
  | unrecognized words => "unrecognized arguments: " ++ " ".intercalate words
  | inputRequired => "an input file is required unless --interactive is given"

-- An option may come with a text in its word: what follows its name, after an equals sign or at once.
inductive Word
  | argument (text : String)
  | terminator
  | option (flag : Flag) (isShort : Bool) (attached : Option (List Char))
  | unknown (text : String)
deriving DecidableEq, Repr

-- A whole or broken number, which is an argument in spite of its sign. One line feed may follow.
def isNegativeNumber : List Char → Bool
  | '-' :: cs =>
    let cs := if cs.getLast? = some '\n' then cs.dropLast else cs
    match cs.dropWhile Text.isDecimal with
    | '.' :: ds => !ds.isEmpty && ds.all Text.isDecimal
    | rest => rest.isEmpty && !cs.isEmpty
  | _ => false

-- The name before the first equals sign, and what follows it.
def assignment (cs : List Char) : List Char × Option (List Char) :=
  match cs.dropWhile (· ≠ '=') with
  | [] => (cs, none)
  | _ :: text => (cs.takeWhile (· ≠ '='), some text)

-- A word that looks like an option without being one.
def otherWord (text : String) : Word :=
  if isNegativeNumber text.toList || ' ' ∈ text.toList then .argument text else .unknown text

def longWord (text : String) : Except Stop Word :=
  let (name, attached) := assignment text.toList
  let exact := Flag.all.filter fun f => f.long.toList = text.toList || f.long.toList = name
  match exact, Flag.all.filter fun f => name.isPrefixOf f.long.toList with
  | f :: _, _ => .ok (.option f false attached)
  | [], [] => .ok (otherWord text)
  | [], [f] => .ok (.option f false attached)
  | [], fs => .error (.ambiguous text fs)

-- A word that begins with one dash; `c` is the character after it.
def shortWord (text : String) (c : Char) (rest : List Char) : Word :=
  match Flag.ofShort? c with
  | none => otherWord text
  | some f =>
    match rest with
    | [] => .option f true none
    | '=' :: text => .option f true (some text)
    | _ => .option f true (some rest)

def classify (text : String) : Except Stop Word :=
  match text.toList with
  | ['-', '-'] => .ok .terminator
  | '-' :: '-' :: _ => longWord text
  | '-' :: c :: rest => .ok (shortWord text c rest)
  | _ => .ok (.argument text)

-- The words of a command line; those after two dashes alone are arguments.
def classifyAll : List String → Except Stop (List Word)
  | [] => .ok []
  | text :: texts =>
    match classify text with
    | .error stop => .error stop
    | .ok .terminator => .ok (.terminator :: texts.map .argument)
    | .ok word =>
      match classifyAll texts with
      | .error stop => .error stop
      | .ok words => .ok (word :: words)

-- An option as it was given, with its argument if it has one.
abbrev Given := Flag × Option String

-- Two dashes stand for no argument.
def argument? (text : List Char) : Option String :=
  if text = ['-', '-'] then none else some (.ofList text)

-- An option whose word is over, and the words after it. Its argument is the next word.
def single (flag : Flag) (rest : List Word) : Except Stop (Given × List Word) :=
  if flag.takesArgument then
    match rest with
    | .argument text :: rest => .ok ((flag, some text), rest)
    | _ => .error (.expectedArgument flag)
  else .ok ((flag, none), rest)

-- An option with the text attached to it, and the words after it. After an option without argument
-- the text names more short options.
def cluster (flag : Flag) (isShort : Bool) (rest : List Word) (text : List Char) :
    Except Stop (List Given × List Word) :=
  if flag.takesArgument then .ok ([(flag, argument? text)], rest)
  else
    let refuse : Except Stop (List Given × List Word) :=
      .error (.ignoredArgument flag (.ofList text))
    match text with
    | [] => refuse
    | c :: cs =>
      match isShort, Flag.ofShort? c with
      | true, some next =>
        if cs.isEmpty then (single next rest).map fun (g, rest) => ([(flag, none), g], rest)
        else (cluster next isShort rest cs).map fun (gs, rest) => ((flag, none) :: gs, rest)
      | _, _ => refuse

-- The options of one word, and the words after it.
def ofWord (flag : Flag) (isShort : Bool) (rest : List Word) :
    Option (List Char) → Except Stop (List Given × List Word)
  | none => (single flag rest).map fun (g, rest) => ([g], rest)
  | some text => cluster flag isShort rest text

def set (o : Options) : Given → Except Stop Options
  | (.help, _) => .error .help
  | (.output, text) => .ok { o with output := text }
  | (.renameMap, text) => .ok { o with renameMap := text }
  | (.logLevel, none) => .ok { o with logLevel := none }
  | (.logLevel, some level) =>
    if level ∈ logLevels then .ok { o with logLevel := some level }
    else .error (.invalidChoice level)
  | (.logFile, text) => .ok { o with logFile := text }
  | (.interactive, _) => .ok { o with interactive := true }

structure Progress where
  options : Options := {}
  -- whether the place of the input is taken
  placed : Bool := false
  extra : List String := []

-- Takes the next words: the first argument is the input, and two dashes next to it belong to it.
-- `fuel` bounds the number of words.
def consume : (fuel : Nat) → Progress → List Word → Except Stop Progress
  | 0, p, _ => .ok p
  | _, p, [] => .ok p
  | fuel + 1, p, .argument text :: rest =>
    if p.placed then consume fuel { p with extra := p.extra ++ [text] } rest
    else
      let rest := if rest.head? = some .terminator then rest.tail else rest
      consume fuel { p with options := { p.options with input := some text }, placed := true } rest
  | fuel + 1, p, .terminator :: rest =>
    if p.placed then consume fuel { p with extra := p.extra ++ ["--"] } rest
    else match rest with
      | .argument text :: rest =>
        consume fuel { p with options := { p.options with input := some text }, placed := true } rest
      | rest => consume fuel { p with placed := true } rest
  | fuel + 1, p, .unknown text :: rest =>
    consume fuel { p with extra := p.extra ++ [text] } rest
  | fuel + 1, p, .option flag isShort attached :: rest =>
    match ofWord flag isShort rest attached with
    | .error stop => .error stop
    | .ok (given, rest) =>
      match given.foldlM set p.options with
      | .error stop => .error stop
      | .ok options => consume fuel { p with options } rest

namespace Options

def parse (texts : List String) : Except Stop Options :=
  match classifyAll texts with
  | .error stop => .error stop
  | .ok words =>
    match consume words.length {} words with
    | .error stop => .error stop
    | .ok p => if p.extra.isEmpty then .ok p.options else .error (.unrecognized p.extra)

end Options

def programName : String := "grammar2dfa"

def usageText : String := "usage: grammar2dfa [-h] [-o OUTPUT] [--rename-map FILE]
                   [--log-level \x7bDEBUG,INFO,WARNING,ERROR,CRITICAL\x7d]
                   [--log-file LOG_FILE] [-i]
                   [input]
"

def helpText : String := usageText ++ "
Convert regular grammars to DFAs and apply complement, union or intersection
to them.

positional arguments:
  input                 test case file (e.g. input.txt)

options:
  -h, --help            show this help message and exit
  -o OUTPUT, --output OUTPUT
                        report file (default: stdout)
  --rename-map FILE     JSON file of per-case state renames, e.g. \x7b\"3\":
                        \x7b\"S_F_G2S\": \"S\"\x7d\x7d
  --log-level \x7bDEBUG,INFO,WARNING,ERROR,CRITICAL\x7d
  --log-file LOG_FILE   also write a detailed log to this file
  -i, --interactive     start the interactive terminal
"

end RightLinear.CommandLine
