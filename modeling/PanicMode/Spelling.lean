import PanicMode.Terminal

namespace PanicMode

/-- How a terminal is written in a program, or a description of one that has no fixed text. The
braces are written by their code points, so that nothing between two of them looks like the hole of
an interpolated text. -/
def Terminal.spelling : Terminal → String
  | .ident => "identifier"
  | .integer => "integer"
  | .real => "real"
  | .character => "character"
  | .string => "string"
  | .AND => "AND"
  | .ARRAY => "ARRAY"
  | .BEGIN => "BEGIN"
  | .BY => "BY"
  | .CASE => "CASE"
  | .CONST => "CONST"
  | .DEFINITION => "DEFINITION"
  | .DIV => "DIV"
  | .DO => "DO"
  | .ELSE => "ELSE"
  | .ELSIF => "ELSIF"
  | .END => "END"
  | .EXIT => "EXIT"
  | .EXPORT => "EXPORT"
  | .FOR => "FOR"
  | .FROM => "FROM"
  | .IF => "IF"
  | .IMPLEMENTATION => "IMPLEMENTATION"
  | .IMPORT => "IMPORT"
  | .IN => "IN"
  | .LOOP => "LOOP"
  | .MOD => "MOD"
  | .MODULE => "MODULE"
  | .NOT => "NOT"
  | .OF => "OF"
  | .OR => "OR"
  | .POINTER => "POINTER"
  | .PROCEDURE => "PROCEDURE"
  | .QUALIFIED => "QUALIFIED"
  | .RECORD => "RECORD"
  | .REPEAT => "REPEAT"
  | .RETURN => "RETURN"
  | .SET => "SET"
  | .THEN => "THEN"
  | .TO => "TO"
  | .TYPE => "TYPE"
  | .UNTIL => "UNTIL"
  | .VAR => "VAR"
  | .WHILE => "WHILE"
  | .WITH => "WITH"
  | .period => "."
  | .comma => ","
  | .colon => ":"
  | .semicolon => ";"
  | .bar => "|"
  | .caret => "^"
  | .range => ".."
  | .assign => ":="
  | .leftParen => "("
  | .rightParen => ")"
  | .leftBracket => "["
  | .rightBracket => "]"
  | .leftBrace => "\x7b"
  | .rightBrace => "\x7d"
  | .equal => "="
  | .notEqual => "#"
  | .less => "<"
  | .lessEqual => "<="
  | .greater => ">"
  | .greaterEqual => ">="
  | .plus => "+"
  | .minus => "-"
  | .star => "*"
  | .slash => "/"
  | .error => "error"
  | .endOfFile => "end of file"

/-- Equality of texts up to the case of the letters A to Z. No other character has a case here. -/
def sameUpToCase (a b : String) : Bool :=
  a.toList.map Char.toUpper == b.toList.map Char.toUpper

/-- Whether a text writes the terminal. Only reserved words may be written in any case. -/
def Terminal.isWrittenAs (k : Terminal) (text : String) : Bool :=
  if k.isReserved then sameUpToCase k.spelling text else k.spelling == text

/-- The first terminal that the text writes. -/
def Terminal.ofSpelling? (text : String) : Option Terminal :=
  Terminal.all.find? (·.isWrittenAs text)

end PanicMode
