import RightLinear.Log.Time

namespace RightLinear.Log

inductive Level
  | notSet
  | debug
  | info
  | warning
  | error
  | critical
deriving DecidableEq, Repr

namespace Level

def severity : Level → Nat
  | notSet => 0
  | debug => 10
  | info => 20
  | warning => 30
  | error => 40
  | critical => 50

instance : LE Level := ⟨fun a b => a.severity ≤ b.severity⟩

instance (a b : Level) : Decidable (a ≤ b) :=
  inferInstanceAs (Decidable (a.severity ≤ b.severity))

def title : Level → String
  | notSet => "NOTSET"
  | debug => "DEBUG"
  | info => "INFO"
  | warning => "WARNING"
  | error => "ERROR"
  | critical => "CRITICAL"

-- Two levels have a second name.
def ofName? : String → Option Level
  | "NOTSET" => some notSet
  | "DEBUG" => some debug
  | "INFO" => some info
  | "WARNING" | "WARN" => some warning
  | "ERROR" => some error
  | "CRITICAL" | "FATAL" => some critical
  | _ => none

end Level

-- The name that all sources of records share.
def namespaceName : String := "grammar2dfa"

-- What is logged, and where: by a source, at one of its lines.
structure Record where
  level : Level
  source : String
  line : Nat
  message : String
deriving DecidableEq, Repr

namespace Record

def logger (r : Record) : String :=
  namespaceName ++ "." ++ r.source

-- A record on the console.
def brief (r : Record) : String :=
  s!"{r.level.title} - {r.logger} - {r.message}\n"

-- The line that a record stands for.
def place (r : Record) : String :=
  s!"{r.source}.py:{r.line}"

-- A record in a file.
def detailed (r : Record) (time : Time) : String :=
  s!"{time.text} - {r.logger} - {r.level.title} - {r.place} - {r.message}\n"

end Record
end RightLinear.Log
