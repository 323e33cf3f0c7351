import PanicMode.Grammar
import PanicMode.Table

namespace PanicMode

/-- The row of each recovery situation of the Modula-2 grammar. Above each row stands the production
in which the parser was. -/
def syncTable : Table :=
  [ -- DEFINITION MODULE ident ";" import* definition* END ident "."
    ⟨.importOrDefinitionOrEnd, "import-or-definition-or-end",
      (firstOfImport ∪ firstOfDefinition).insert .END⟩,
    -- FROM ident IMPORT identList ";"
    ⟨.importOrIdentOrSemicolon, "import-or-ident-or-semicolon",
      .ofList [.IMPORT, .ident, .semicolon]⟩,
    -- IMPORT identList ";"
    ⟨.identOrSemicolon, "ident-or-semicolon", .ofList [.ident, .semicolon]⟩,
    -- identList := ident ("," ident)*
    ⟨.commaOrSemicolon, "comma-or-semicolon", .ofList [.comma, .semicolon]⟩,
    -- CONST, TYPE and VAR sections: (ident ... ";")*
    ⟨.definitionOrIdentOrSemicolon, "definition-or-ident-or-semicolon",
      (firstOfDefinition.insert .ident).insert .semicolon⟩,
    -- PROCEDURE heading ";"
    ⟨.definitionOrSemicolon, "definition-or-semicolon", firstOfDefinition.insert .semicolon⟩,
    -- ARRAY simpleType ("," simpleType)* OF type
    ⟨.typeOrCommaOrOf, "type-or-comma-or-of", (firstOfType.insert .comma).insert .OF⟩,
    -- RECORD fieldListSequence END, statementSequence END
    ⟨.semicolonOrEnd, "semicolon-or-end", .ofList [.semicolon, .END]⟩,
    -- CASE ... ("|" case)* (ELSE ...)? END
    ⟨.elseOrEnd, "else-or-end", .ofList [.ELSE, .END]⟩,
    -- "(" ident ("," ident)* ")" and actual parameters
    ⟨.commaOrRightParen, "comma-or-right-paren", .ofList [.comma, .rightParen]⟩,
    -- identList ":" type ";"
    ⟨.colonOrSemicolon, "colon-or-semicolon", .ofList [.colon, .semicolon]⟩,
    -- MODULE ident ";" import* block ident "."
    ⟨.importOrBlock, "import-or-block",
      ((firstOfImport ∪ firstOfDeclaration).insert .BEGIN).insert .END⟩,
    -- CONST, TYPE and VAR sections of a block
    ⟨.declarationOrIdentOrSemicolon, "declaration-or-ident-or-semicolon",
      (firstOfDeclaration.insert .ident).insert .semicolon⟩,
    -- block := declaration* (BEGIN statementSequence)? END
    ⟨.declarationOrSemicolon, "declaration-or-semicolon", firstOfDeclaration.insert .semicolon⟩,
    -- statementSequence := statement (";" statement)*
    ⟨.firstOrFollowOfStatement, "first-or-follow-of-statement",
      firstOfStatement ∪ followOfStatement⟩,
    -- IF expr THEN ... (ELSIF expr THEN ...)* (ELSE ...)? END
    ⟨.elsifOrElseOrEnd, "elsif-or-else-or-end", .ofList [.ELSIF, .ELSE, .END]⟩,
    -- FOR ident ":=" expr TO expr (BY constExpr)? DO statementSequence END
    ⟨.forLoopBody, "for-loop-body", (firstOfStatement.insert .DO).insert .END⟩ ]

namespace Situation

theorem ordinal_lt_length_syncTable (d : Situation) : d.ordinal < syncTable.length := by
  cases d <;> decide

def row (d : Situation) : Row := syncTable.get ⟨d.ordinal, d.ordinal_lt_length_syncTable⟩

def set (d : Situation) : TerminalSet := d.row.set

def name (d : Situation) : String := d.row.name

/-- The situation with this name, letter for letter. -/
def named? (name : String) : Option Situation := syncTable.named? name

/-- The situations in which the parser may resume at the terminal, by increasing ordinal. -/
def resumingAt (k : Terminal) : List Situation := syncTable.resumingAt k

def setAt (n : Int) : Except InvalidOrdinal TerminalSet := (ofOrdinal n).map set

def nameAt (n : Int) : Except InvalidOrdinal String := (ofOrdinal n).map name

end Situation

end PanicMode
