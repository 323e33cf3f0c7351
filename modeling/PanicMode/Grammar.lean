import PanicMode.TerminalSet

namespace PanicMode

/-- Terminals no parser may resume at: the end of the input ends the skipping by itself, and an
error token is what is being skipped. -/
def nonResuming : List Terminal := [.endOfFile, .error]

/-- `import := FROM ident IMPORT identList ";" | IMPORT identList ";"` -/
def firstOfImport : TerminalSet := .ofList [.IMPORT, .FROM]

/-- Definitions that a definition module may hold. -/
def firstOfDefinition : TerminalSet := .ofList [.CONST, .TYPE, .VAR, .PROCEDURE]

/-- Declarations of a block are definitions and local modules. -/
def firstOfDeclaration : TerminalSet := firstOfDefinition.insert .MODULE

/-- `type := simpleType | ArrayType | RecordType | SetType | PointerType | ProcedureType`
with `simpleType := qualident | enumeration | SubrangeType` -/
def firstOfType : TerminalSet :=
  .ofList [.ident, .leftParen, .leftBracket, .ARRAY, .RECORD, .SET, .POINTER, .PROCEDURE]

/-- Statements begin with a designator or with a word of their own. -/
def firstOfStatement : TerminalSet :=
  .ofList [.ident, .IF, .CASE, .WHILE, .REPEAT, .LOOP, .FOR, .WITH, .EXIT, .RETURN]

/-- A statement ends at a separator, at the end of its block or at the bar of a case. -/
def followOfStatement : TerminalSet :=
  .ofList [.semicolon, .END, .ELSIF, .ELSE, .UNTIL, .bar]

end PanicMode
