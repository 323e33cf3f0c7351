import PanicMode.Cursor
import PanicMode.SyncTable
import PanicMode.Violation

namespace PanicMode

/-- What a query prints, and whether the table passed. -/
structure Report where
  output : String
  success : Bool
deriving DecidableEq, Repr

inductive QueryError where
  | invalidOrdinal (e : InvalidOrdinal)
  | unknownSituation (text : String)
  | unknownToken (text : String)
deriving DecidableEq, Repr

def QueryError.message : QueryError → String
  | .invalidOrdinal e => e.message
  | .unknownSituation text => "unknown recovery situation `" ++ text ++ "`"
  | .unknownToken text => "unknown token `" ++ text ++ "`"

/-- Blanks that widen a text of `n` characters to `width`, none if it is wide enough. -/
def fill (width n : Nat) : String := String.ofList (List.replicate (width - n) ' ')

/-- The text at the right end of a column. A longer text is not cut. -/
def alignRight (width : Nat) (text : String) : String := fill width text.length ++ text

/-- The text at the left end of a column. A longer text is not cut. -/
def alignLeft (width : Nat) (text : String) : String := text ++ fill width text.length

/-- The members in braces, by increasing index, each by its spelling. A comma and a blank part
them. A brace in a text is written by its code point here, as in the spellings. -/
def TerminalSet.render (s : TerminalSet) : String :=
  "\x7b" ++ ", ".intercalate (s.toList.map Terminal.spelling) ++ "\x7d"

def Row.line (r : Row) : String :=
  alignRight 2 (toString r.situation.ordinal) ++ "  " ++ alignLeft 34 r.name ++ " " ++
    r.set.render ++ "\n"

def Situation.line (d : Situation) : String :=
  alignRight 2 (toString d.ordinal) ++ "  " ++ d.name ++ "\n"

/-- The value of one or more decimal digits. -/
def digitsValue? (ds : List Char) : Option Nat :=
  if !ds.isEmpty && ds.all Char.isDigit then some (Nat.ofDigitChars 10 ds 0) else none

/-- The value of a decimal numeral, which may have one sign and any number of leading zeros. -/
def numeralValue? : List Char → Option Int
  | '+' :: ds => (digitsValue? ds).map (fun n => (n : Int))
  | '-' :: ds => (digitsValue? ds).map (fun n => -(n : Int))
  | ds => (digitsValue? ds).map (fun n => (n : Int))

/-- The numbers that a signed word of 64 bits can hold. -/
def fitsInt64 (v : Int) : Bool :=
  decide (-9223372036854775808 ≤ v) && decide (v ≤ 9223372036854775807)

/-- Reads a decimal numeral, unless its value needs more than 64 bits. -/
def readInt64? (text : String) : Option Int := (numeralValue? text.toList).filter fitsInt64

/-- The situation that a text asks for: by ordinal if it is a numeral, else by name. -/
def Situation.resolve (text : String) : Except QueryError Situation :=
  match readInt64? text with
  | some n => (Situation.ofOrdinal n).mapError .invalidOrdinal
  | none =>
    match Situation.named? text with
    | some d => .ok d
    | none => .error (.unknownSituation text)

namespace Report

def table : Report := ⟨String.join (syncTable.map Row.line), true⟩

def situation (text : String) : Except QueryError Report :=
  (Situation.resolve text).map (fun d => ⟨d.row.line, true⟩)

/-- The situations that resume at a terminal, or one line that says that there is none. -/
def resumingLines (k : Terminal) : List String :=
  match Situation.resumingAt k with
  | [] => ["no recovery situation resumes at `" ++ k.spelling ++ "`\n"]
  | ds => ds.map Situation.line

/-- The situations that resume at the terminal that a text writes. -/
def resuming (text : String) : Except QueryError Report :=
  match Terminal.ofSpelling? text with
  | some k => .ok ⟨String.join (resumingLines k), true⟩
  | none => .error (.unknownToken text)

/-- The violations of a table, or one line that says that there is none. -/
def verdict (t : Table) : Report :=
  match t.violations with
  | [] => ⟨"ok: " ++ toString t.length ++ " resync sets verified\n", true⟩
  | vs => ⟨String.join (vs.map (fun v => "FAIL " ++ v.message ++ "\n")), false⟩

def check : Report := verdict syncTable

end Report

end PanicMode
