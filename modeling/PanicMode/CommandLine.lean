import PanicMode.Report

namespace PanicMode

inductive Command where
  | list
  | situation (text : String)
  | resuming (text : String)
  | check
deriving DecidableEq, Repr

/-- What a subcommand takes: nothing, or one value, which may be allowed to begin with a hyphen. -/
inductive Form (α : Type) where
  | plain (result : α)
  | valued (name about : String) (hyphens : Bool) (make : String → α)

structure Subcommand (α : Type) where
  name : String
  about : String
  form : Form α

/-- What a program declares of its command line. One of the subcommands has to be given. -/
structure Interface (α : Type) where
  program : String
  version : String
  about : String
  subcommands : List (Subcommand α)

/-- Why a command line ends the program: it asks for a text, or it breaks the rules of use. -/
inductive Stop where
  | asked (text : String)
  | misuse (text : String)
deriving DecidableEq, Repr

structure Outcome where
  exitCode : Nat
  stdout : String
  stderr : String
deriving DecidableEq, Repr

/-- A reader of command lines, whatever interface they are for. Readers are no part of this library:
the program is given one. -/
structure ArgumentReader where
  read {α : Type} : Interface α → List String → Except Stop α
  stop : Stop → Outcome

/-- The result for these values, if they are as many as the form takes. -/
def Form.build? {α : Type} : Form α → List String → Option α
  | .plain result, [] => some result
  | .valued _ _ _ make, [v] => some (make v)
  | _, _ => none

def Interface.find? {α : Type} (i : Interface α) (name : String) : Option (Subcommand α) :=
  i.subcommands.find? (fun s => s.name == name)

namespace Command

def interface : Interface Command where
  program := "m2-resync"
  version := "0.1.0"
  about := "Inspect the Modula-2 parser's resynchronization sets"
  subcommands :=
    [⟨"list", "Print every recovery situation with its tokens", .plain .list⟩,
      ⟨"show", "Print one recovery situation",
        .valued "SITUATION" "Situation name (e.g. `for-loop-body`) or ordinal" true .situation⟩,
      ⟨"which", "List the situations whose set contains a token",
        .valued "TOKEN" "Token spelling (e.g. `END`, `;`, `identifier`)" true .resuming⟩,
      ⟨"check", "Verify the registry invariants", .plain .check⟩]

def report : Command → Except QueryError Report
  | .list => .ok Report.table
  | .situation text => Report.situation text
  | .resuming text => Report.resuming text
  | .check => .ok Report.check

end Command

namespace Outcome

/-- A report goes to the standard output, an error to the standard error. -/
def ofReport : Except QueryError Report → Outcome
  | .ok r => ⟨if r.success then 0 else 1, r.output, ""⟩
  | .error e => ⟨1, "", "error: " ++ e.message ++ "\n"⟩

def run (reader : ArgumentReader) (args : List String) : Outcome :=
  match reader.read Command.interface args with
  | .ok c => ofReport c.report
  | .error s => reader.stop s

end Outcome

end PanicMode
