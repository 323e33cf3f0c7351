import PanicMode.Grammar
import PanicMode.Spelling
import PanicMode.Table
import Std.Data.HashSet

namespace PanicMode

/-- One departure of a table from the form that the lookups rely on. -/
inductive Violation where
  | wrongLength (expected found : Nat)
  | outOfPosition (name : String) (position ordinal : Nat)
  | emptyName (position : Nat)
  | duplicateName (name : String)
  | emptySet (name : String)
  | nonResuming (name : String) (k : Terminal)
deriving DecidableEq, Repr

def Violation.message : Violation → String
  | .wrongLength expected found =>
    "expected " ++ toString expected ++ " entries, found " ++ toString found
  | .outOfPosition name position ordinal =>
    "entry `" ++ name ++ "` at position " ++ toString position ++ " belongs at " ++ toString ordinal
  | .emptyName position => "entry at position " ++ toString position ++ " has an empty name"
  | .duplicateName name => "duplicate name `" ++ name ++ "`"
  | .emptySet name => "`" ++ name ++ "` has an empty set"
  | .nonResuming name k => "`" ++ name ++ "` contains `" ++ k.spelling ++ "`"

/-- The names of the rows above. The empty name is reported by itself and never remembered. -/
abbrev SeenNames := Std.HashSet String

def Row.addName (seen : SeenNames) (r : Row) : SeenNames :=
  if r.name.isEmpty then seen else seen.insert r.name

/-- The violations of a row at a position, given the names of the rows above. -/
def Row.violations (seen : SeenNames) (position : Nat) (r : Row) : List Violation :=
  (if r.situation.ordinal ≠ position then
      [.outOfPosition r.name position r.situation.ordinal] else []) ++
    (if r.name.isEmpty then [.emptyName position]
      else if seen.contains r.name then [.duplicateName r.name] else []) ++
    (if r.set.isEmpty then [.emptySet r.name] else []) ++
    (nonResuming.filter r.set.contains).map (.nonResuming r.name)

/-- The violations of rows that stand at `position` and below. -/
def Table.rowViolations (seen : SeenNames) (position : Nat) : Table → List Violation
  | [] => []
  | r :: rest =>
    r.violations seen position ++ rowViolations (r.addName seen) (position + 1) rest

def Table.violations (t : Table) : List Violation :=
  (if t.length ≠ Situation.count then [.wrongLength Situation.count t.length] else []) ++
    Table.rowViolations ∅ 0 t

end PanicMode
