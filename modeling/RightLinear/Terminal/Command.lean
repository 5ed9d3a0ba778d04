import RightLinear.DFA.Product
import RightLinear.Table
import RightLinear.Text.Blank
import RightLinear.Text.Digit
import RightLinear.Text.LowerCase

namespace RightLinear.Terminal

inductive Command
  | exit
  | help
  | load (file : String)
  | list
  | run (file : String) (renames : Option String)
  | showGrammar (name : String)
  | words (name bound : String)
  | toNFA (name result : String)
  | toDFA (name result : String)
  | showAutomaton (name : String)
  | printDFA (name : String)
  | graph (name : String)
  | test (name word : String)
  | complete (name result : String)
  | complement (name result : String)
  | product (op : Operation) (left right result : String)
  | trim (name : String)
  | rename (name : String)
  | renameWith (name : String) (map : Table String String)
  | delete (name : String)
  | clear

-- Why a line is no command.
inductive Misuse
  | usage (text : String)
  | unknown (name : String)
deriving DecidableEq, Repr

def Misuse.message : Misuse → String
  | usage text => "Usage: " ++ text
  | unknown name => "Unknown command: " ++ name

namespace Command

-- The labels before and after the first equals sign.
def renaming? (word : String) : Option (String × String) :=
  let cs := word.toList
  if '=' ∈ cs then
    some (.ofList (cs.takeWhile (· ≠ '=')), .ofList ((cs.dropWhile (· ≠ '=')).drop 1))
  else none

-- Of several new labels for one old label the last counts.
def renamings? (words : List String) : Option (Table String String) :=
  (words.mapM renaming?).map fun entries => .ofList entries.reverse

def isCount (word : String) : Bool :=
  !word.isEmpty && word.toList.all Text.isDigitSign

-- The first word, in any case, says which command it is; further words are its arguments, and words
-- beyond those are ignored.
def ofWords (name : String) (args : List String) : Except Misuse Command :=
  let misuse (text : String) : Except Misuse Command := .error (.usage text)
  match name with
  | "exit" | "quit" => .ok .exit
  | "help" => .ok .help
  | "load" =>
    match args with
    | file :: _ => .ok (.load file)
    | [] => misuse "load <filename>"
  | "list" => .ok .list
  | "run" =>
    match args with
    | file :: rest => .ok (.run file rest.head?)
    | [] => misuse "run <file> [rename_map.json]"
  | "show_grammar" =>
    match args with
    | name :: _ => .ok (.showGrammar name)
    | [] => misuse "show_grammar <name>"
  | "words" =>
    match args with
    | name :: bound :: _ =>
      if isCount bound then .ok (.words name bound) else misuse "words <name> <max_length>"
    | _ => misuse "words <name> <max_length>"
  | "to_nfa" =>
    match args with
    | name :: rest => .ok (.toNFA name (rest.headD (name ++ "_nfa")))
    | [] => misuse "to_nfa <name> [result]"
  | "to_dfa" =>
    match args with
    | name :: rest => .ok (.toDFA name (rest.headD (name ++ "_dfa")))
    | [] => misuse "to_dfa <name> [result]"
  | "show" =>
    match args with
    | name :: _ => .ok (.showAutomaton name)
    | [] => misuse "show <name>"
  | "print" =>
    match args with
    | name :: _ => .ok (.printDFA name)
    | [] => misuse "print <name>"
  | "graph" =>
    match args with
    | name :: _ => .ok (.graph name)
    | [] => misuse "graph <name>"
  | "test" =>
    match args with
    | name :: word :: _ => .ok (.test name word)
    | _ => misuse "test <name> <word>"
  | "complete" =>
    match args with
    | name :: rest => .ok (.complete name (rest.headD (name ++ "_total")))
    | [] => misuse "complete <name> [result]"
  | "complement" =>
    match args with
    | name :: rest => .ok (.complement name (rest.headD (name ++ "_comp")))
    | [] => misuse "complement <name> [result]"
  | "union" =>
    match args with
    | n₁ :: n₂ :: rest => .ok (.product .union n₁ n₂ (rest.headD (n₁ ++ "_union_" ++ n₂)))
    | _ => misuse "union <n1> <n2> [result]"
  | "intersect" =>
    match args with
    | n₁ :: n₂ :: rest => .ok (.product .intersection n₁ n₂ (rest.headD (n₁ ++ "_int_" ++ n₂)))
    | _ => misuse "intersect <n1> <n2> [result]"
  | "trim" =>
    match args with
    | name :: _ => .ok (.trim name)
    | [] => misuse "trim <name>"
  | "rename" =>
    match args with
    | name :: _ => .ok (.rename name)
    | [] => misuse "rename <name>"
  | "rename_map" =>
    match args with
    | name :: word :: rest =>
      match renamings? (word :: rest) with
      | some map => .ok (.renameWith name map)
      | none => misuse "rename_map <name> <old=new> [old=new ...]"
    | _ => misuse "rename_map <name> <old=new> [old=new ...]"
  | "delete" =>
    match args with
    | name :: _ => .ok (.delete name)
    | [] => misuse "delete <name>"
  | "clear" => .ok .clear
  | _ => .error (.unknown name)

-- The command of a line; a line of blanks has none.
def ofLine? (line : String) : Option (Except Misuse Command) :=
  match Text.words line.toList with
  | [] => none
  | name :: args => some (ofWords (.ofList (Text.lower name)) (args.map String.ofList))

end Command

-- What the command `help` shows.
def helpText : String := "
Commands:
  LOADING:
    load <file>                    - Load grammars and test cases from file
    list                           - List all loaded items
    run <file> [rename_map.json]   - Run every test case in a file and print the report

  GRAMMAR OPERATIONS:
    show_grammar <name>            - Show grammar info
    words <name> <max_length>      - List words the grammar derives
    to_nfa <name> [result]         - Convert grammar to NFA
    to_dfa <name> [result]         - Convert grammar or NFA to DFA

  AUTOMATA OPERATIONS:
    show <name>                    - Show automaton info
    print <name>                   - Print DFA in report format
    graph <name>                   - Visualize automaton
    test <name> <word>             - Test if word is accepted

    TRANSFORMATIONS:
      complete <name> [result]     - Add a dead state for missing transitions
      complement <name> [result]   - Complement DFA
      trim <name>                  - Remove unreachable states (in place)
      rename <name>                - Rename states to S, A, B, ... (in place)
      rename_map <name> <old=new>... - Rename selected states (in place)

    COMBINATIONS:
      union <n1> <n2> [result]     - Union of two complete DFAs
      intersect <n1> <n2> [result] - Intersection of two complete DFAs

  GENERAL:
    delete <name>                  - Delete item
    clear                          - Clear all
    exit                           - Exit
"

end RightLinear.Terminal
