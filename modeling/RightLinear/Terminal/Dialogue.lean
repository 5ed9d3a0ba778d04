import RightLinear.Log.Config
import RightLinear.Terminal.Session

namespace RightLinear.Terminal

-- What comes at a prompt.
inductive Entry
  | line (text : String)
  | interrupt
deriving DecidableEq, Repr

def banner : String :=
  "Regular Grammar & DFA Terminal - Type 'help' for commands\n\n"

def farewell : String := "Goodbye!\n"

structure Dialogue where
  renderer : Diagram.Renderer
  config : Log.Config
  session : Session := {}
  output : Log.Output

namespace Dialogue

-- The dialogue after an entry and what is said; without a dialogue after it the entry ends it.
def turn (d : Dialogue) : Entry → Option Dialogue × String
  | .interrupt => (some d, "\nUse 'exit' to quit\n")
  | .line text =>
    match Command.ofLine? text with
    | none => (some d, "")
    | some (.error misuse) => (some d, misuse.message ++ "\n")
    | some (.ok .exit) => (none, farewell)
    | some (.ok command) =>
      let r := d.session.perform d.output.files d.renderer command
      let output := d.config.emit { d.output with files := r.files } r.records
      (some { d with session := r.session, output }, r.reply.text)

-- What is said after each prompt, and the output in the end. The end of the entries is an end too.
def converse (d : Dialogue) : List Entry → List String × Log.Output
  | [] => ([farewell], d.output)
  | entry :: entries =>
    match d.turn entry with
    | (none, said) => ([said], d.output)
    | (some d, said) =>
      let (rest, output) := d.converse entries
      (said :: rest, output)

end Dialogue
end RightLinear.Terminal
