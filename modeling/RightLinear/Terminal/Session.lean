import RightLinear.Diagram.Renderer
import RightLinear.Grammar.Derive
import RightLinear.Load
import RightLinear.Log.Trace
import RightLinear.Report
import RightLinear.Terminal.Command
import RightLinear.Word

namespace RightLinear.Terminal

inductive Machine
  | nfa (n : NFA)
  | dfa (d : DFA String)
deriving DecidableEq

namespace Machine

def kind : Machine → Kind
  | nfa _ => .nfa
  | dfa _ => .dfa

def parts : Machine → Automaton String
  | nfa n => n.toAutomaton
  | dfa d => d.toAutomaton

def arrows : Machine → List (Arrow String)
  | nfa n => n.arrows
  | dfa d => d.arrows

def accepts : Machine → List String → Bool
  | nfa n, word => n.accepts word
  | dfa d, word => d.accepts word

def diagram : Machine → Diagram
  | nfa n => n.diagram
  | dfa d => d.diagram

end Machine

structure Session where
  automata : Table String Machine := ∅
  grammars : Table String Grammar := ∅
  cases : Table Int TestCase := ∅
deriving DecidableEq

-- What a command says: that it was done, or why it was not.
inductive Reply
  | done (text : String)
  | refused (text : String)
deriving DecidableEq, Repr

def Reply.text : Reply → String
  | done t | refused t => t

-- All that a command brings about.
structure Reaction where
  session : Session
  files : FileSystem
  reply : Reply
  records : List Log.Record

namespace Session

-- One line of what is said.
def line (text : String) : String :=
  text ++ "\n"

section

variable (s : Session) (files : FileSystem)

def say (text : String) : Reaction :=
  ⟨s, files, .done text, []⟩

def refuse (text : String) : Reaction :=
  ⟨s, files, .refused (line text), []⟩

def fail (message : String) : Reaction :=
  s.refuse files ("Error: " ++ message)

def setAutomaton (name : String) (m : Machine) : Session :=
  { s with automata := s.automata.insert name m }

-- A new automaton under a name, unless it could not be built.
def keep (name : String) (announcement : String) (records : List Log.Record) :
    Except Error Machine → Reaction
  | .error e => { s.fail files e.message with records }
  | .ok m => ⟨s.setAutomaton name m, files, .done (line (announcement ++ name)), records⟩

-- The grammar with a name, or what is said without one.
def grammar (name : String) : Except String Grammar :=
  match s.grammars.find? name with
  | some g => .ok g
  | none => .error ("Grammar not found: " ++ name)

def automaton (name : String) : Except String Machine :=
  match s.automata.find? name with
  | some m => .ok m
  | none => .error ("Automaton not found: " ++ name)

def dfa (name : String) : Except String (DFA String) :=
  match s.automaton name with
  | .error e => .error e
  | .ok (.nfa _) => .error (name ++ " is an NFA; convert it with to_dfa first")
  | .ok (.dfa d) => .ok d

def withGrammar (name : String) (f : Grammar → Reaction) : Reaction :=
  match s.grammar name with
  | .error text => s.refuse files text
  | .ok g => f g

def withAutomaton (name : String) (f : Machine → Reaction) : Reaction :=
  match s.automaton name with
  | .error text => s.refuse files text
  | .ok m => f m

def withDFA (name : String) (f : DFA String → Reaction) : Reaction :=
  match s.dfa name with
  | .error text => s.refuse files text
  | .ok d => f d

-- A grammar whose name is taken is kept under its name and the number of its test case.
def grammarKey (grammars : Table String Grammar) (id : Int) (g : Grammar) : String :=
  if grammars.contains g.name then s!"{g.name}_{id}" else g.name

-- Takes in a test case; the keys of its grammars are added to those in `keys`.
def addCase (state : Session × List String) (c : TestCase) : Session × List String :=
  c.grammars.foldl
    (fun (s, keys) g =>
      let key := grammarKey s.grammars c.id g
      ({ s with grammars := s.grammars.insert key g }, keys ++ [key]))
    ({ state.1 with cases := state.1.cases.insert c.id c }, state.2)

def load (file : String) : Reaction :=
  match files.loadCases file with
  | .error e => { s.fail files e.message with records := e.notices.map (·.record) }
  | .ok reading =>
    let (after, keys) := reading.cases.foldl addCase (s, [])
    let counts := s!"Loaded {reading.cases.length} test cases and {keys.length} grammars: "
    let text := if reading.cases.isEmpty then "No items loaded"
      else counts ++ ", ".intercalate keys
    ⟨after, files, .done (line text), reading.notices.map (·.record)⟩

def run (file : String) (renames : Option String) : Reaction :=
  let maps : Except LoadError (Table Int RenameMap) :=
    match renames with
    | none => .ok ∅
    | some path => files.loadRenames path
  match maps with
  | .error e => s.fail files e.message
  | .ok maps =>
    match files.loadCases file with
    | .error e => { s.fail files e.message with records := e.notices.map (·.record) }
    | .ok reading =>
      let records := reading.notices.map (·.record) ++ traceBatch reading.cases maps
      match Text.string? (Report.text (runBatch reading.cases maps)) with
      | .error e => { s.fail files e.message with records }
      | .ok report => { s.say files report with records }

def titled (title : String) (lines : List String) : List String :=
  if lines.isEmpty then [] else title :: lines

def listing : List String :=
  titled "Grammars:" (s.grammars.entries.map fun (name, g) =>
    s!"  {name}: {g.nonTerminals.length} non-terminals, {g.productions.length} productions") ++
  titled "Automata:" (s.automata.entries.map fun (name, m) =>
    s!"  {name}: {m.kind.title}, {m.parts.states.size} states") ++
  titled "Test cases:" (s.cases.entries.map fun (id, c) =>
    let operation := (c.operation.filter (!·.isEmpty)).getD "-"
    s!"  {id}: {operation} on " ++ ", ".intercalate (c.grammars.map (·.name)))

def list : Reaction :=
  let lines := s.listing
  s.say files (String.join ((if lines.isEmpty then ["Nothing loaded"] else lines).map line))

def words (name bound : String) : Reaction :=
  s.withGrammar files name fun g =>
    match Text.integer bound.toList with
    | .error fault => s.fail files (fault.message (Text.points bound))
    | .ok n =>
      match g.derive n with
      | .error e => s.fail files e.message
      | .ok found =>
        let ordered := found.toList.mergeSort fun v w =>
          v.length < w.length || (v.length = w.length && v ≤ w)
        let shown := ordered.map fun w => if w.isEmpty then epsilon else w
        s.say files (line (if shown.isEmpty then "(none)" else ", ".intercalate shown))

def description (name : String) (m : Machine) : String :=
  let complete := match m with
    | .nfa _ => []
    | .dfa d => ["  Complete: " ++ if d.isComplete then "yes" else "no"]
  let lines := [
    "",
    s!"{name} ({m.kind.title}):",
    "  States: " ++ ", ".intercalate m.parts.states.toList,
    "  Alphabet: " ++ ", ".intercalate m.parts.alphabet,
    "  Start: " ++ shown m.parts.start,
    "  Accepting: " ++ ", ".intercalate m.parts.accepting.toList,
    s!"  Transitions: {m.arrows.length}"] ++ complete ++ [""]
  String.join (lines.map line)

def graph (renderer : Diagram.Renderer) (name : String) (m : Machine) : Reaction :=
  match renderer files name m.diagram with
  | (files, some message) => s.fail files message
  | (files, none) => s.say files (line ("Created: " ++ name ++ ".png"))

def toDFA (name result : String) : Reaction :=
  match s.automata.find? name, s.grammars.find? name with
  | some (.dfa _), _ => s.refuse files (name ++ " is already a DFA")
  | some (.nfa n), _ => s.keep files result "Created: " n.traceDFA (n.toDFA.map .dfa)
  | none, some g => s.keep files result "Created: " g.traceDFA (g.toDFA.map .dfa)
  | none, none => s.refuse files ("Not found: " ++ name)

-- Both names are looked up before anything is said.
def product (op : Operation) (left right result : String) : Reaction :=
  match s.dfa left, s.dfa right with
  | .ok d₁, .ok d₂ =>
    s.keep files result "Created: " (DFA.traceProduct op d₁ d₂) ((DFA.product op d₁ d₂).map .dfa)
  | .error e₁, .error e₂ => ⟨s, files, .refused (line e₁ ++ line e₂), []⟩
  | .error e, .ok _ | .ok _, .error e => s.refuse files e

def trim (name : String) (d : DFA String) : Reaction :=
  let trimmed := d.trim
  let removed := d.states.size - trimmed.states.size
  ⟨s.setAutomaton name (.dfa trimmed), files,
    .done (line s!"Removed {removed} unreachable states"), d.traceTrim⟩

def relabel (name : String) : Except Error (DFA String) → Reaction
  | .error e => s.fail files e.message
  | .ok d =>
    ⟨s.setAutomaton name (.dfa d), files,
      .done (line ("Renamed: " ++ ", ".intercalate d.orderedStates)), []⟩

def delete (name : String) : Reaction :=
  if s.automata.contains name || s.grammars.contains name then
    let after := { s with automata := s.automata.erase name, grammars := s.grammars.erase name }
    ⟨after, files, .done (line ("Deleted: " ++ name)), []⟩
  else s.refuse files ("Not found: " ++ name)

-- What a command does; `exit` is up to the one who reads the commands.
def perform (renderer : Diagram.Renderer) : Command → Reaction
  | .exit => s.say files ""
  | .help => s.say files (line helpText)
  | .load file => s.load files file
  | .list => s.list files
  | .run file renames => s.run files file renames
  | .showGrammar name => s.withGrammar files name fun g => s.say files (line g.display)
  | .words name bound => s.words files name bound
  | .toNFA name result =>
    s.withGrammar files name fun g =>
      s.keep files result "Created automaton: " g.traceNFA (g.toNFA.map .nfa)
  | .toDFA name result => s.toDFA files name result
  | .showAutomaton name => s.withAutomaton files name fun m => s.say files (description name m)
  | .printDFA name =>
    s.withDFA files name fun d =>
      s.say files (Text.ofPoints (Report.dfaBlock Text.points name d))
  | .graph name => s.withAutomaton files name (s.graph files renderer name)
  | .test name word =>
    s.withAutomaton files name fun m =>
      let word := if word = "ε" ∨ word = "eps" then [] else symbolsOf word
      s.say files (line (if m.accepts word then "ACCEPTED" else "REJECTED"))
  | .complete name result =>
    s.withDFA files name fun d => s.keep files result "Created: " [] (.ok (.dfa d.complete))
  | .complement name result =>
    s.withDFA files name fun d => s.keep files result "Created: " [] (.ok (.dfa d.complement))
  | .product op left right result => s.product files op left right result
  | .trim name => s.withDFA files name (s.trim files name)
  | .rename name => s.withDFA files name fun d => s.relabel files name d.relabelReadable
  | .renameWith name map => s.withDFA files name fun d => s.relabel files name (d.relabelWith map)
  | .delete name => s.delete files name
  | .clear => { s.say files (line "Cleared all") with session := {} }

end

end Session
end RightLinear.Terminal
