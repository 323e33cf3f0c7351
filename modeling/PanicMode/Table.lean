import PanicMode.Situation
import PanicMode.TerminalSet

namespace PanicMode

/-- What the parser knows of one situation: a name for messages and the terminals to resume at. -/
structure Row where
  situation : Situation
  name : String
  set : TerminalSet
deriving DecidableEq, Repr

/-- Rows in any number and order. A well-formed table has the row of each situation at its ordinal. -/
abbrev Table := List Row

namespace Table

def rowAt? (t : Table) (d : Situation) : Option Row := t[d.ordinal]?

/-- The situation of the first row with this name. -/
def named? (t : Table) (name : String) : Option Situation :=
  (t.find? (fun r => r.name == name)).map Row.situation

/-- The situations of the rows whose set contains the terminal, in the order of the rows. -/
def resumingAt (t : Table) (k : Terminal) : List Situation :=
  (t.filter (fun r => r.set.contains k)).map Row.situation

end Table

end PanicMode
