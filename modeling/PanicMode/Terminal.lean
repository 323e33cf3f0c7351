namespace PanicMode

/-- The terminals of the Modula-2 grammar: what a lexer can hand to a parser.
Reserved words keep the upper case in which the language writes them. -/
inductive Terminal where
  | ident
  | integer
  | real
  | character
  | string
  | AND
  | ARRAY
  | BEGIN
  | BY
  | CASE
  | CONST
  | DEFINITION
  | DIV
  | DO
  | ELSE
  | ELSIF
  | END
  | EXIT
  | EXPORT
  | FOR
  | FROM
  | IF
  | IMPLEMENTATION
  | IMPORT
  | IN
  | LOOP
  | MOD
  | MODULE
  | NOT
  | OF
  | OR
  | POINTER
  | PROCEDURE
  | QUALIFIED
  | RECORD
  | REPEAT
  | RETURN
  | SET
  | THEN
  | TO
  | TYPE
  | UNTIL
  | VAR
  | WHILE
  | WITH
  | period
  | comma
  | colon
  | semicolon
  | bar
  | caret
  | range
  | assign
  | leftParen
  | rightParen
  | leftBracket
  | rightBracket
  | leftBrace
  | rightBrace
  | equal
  | notEqual
  | less
  | lessEqual
  | greater
  | greaterEqual
  | plus
  | minus
  | star
  | slash
  | error
  | endOfFile
deriving DecidableEq, Repr

def Terminal.all : List Terminal :=
  [.ident, .integer, .real, .character, .string,
    .AND, .ARRAY, .BEGIN, .BY, .CASE, .CONST, .DEFINITION, .DIV, .DO, .ELSE, .ELSIF, .END, .EXIT,
    .EXPORT, .FOR, .FROM, .IF, .IMPLEMENTATION, .IMPORT, .IN, .LOOP, .MOD, .MODULE, .NOT, .OF, .OR,
    .POINTER, .PROCEDURE, .QUALIFIED, .RECORD, .REPEAT, .RETURN, .SET, .THEN, .TO, .TYPE, .UNTIL,
    .VAR, .WHILE, .WITH,
    .period, .comma, .colon, .semicolon, .bar, .caret, .range, .assign, .leftParen, .rightParen,
    .leftBracket, .rightBracket, .leftBrace, .rightBrace,
    .equal, .notEqual, .less, .lessEqual, .greater, .greaterEqual, .plus, .minus, .star, .slash,
    .error, .endOfFile]

/-- Position of a terminal in the order of declaration. -/
def Terminal.index (k : Terminal) : Nat := k.ctorIdx

def Terminal.ofIndex? (i : Nat) : Option Terminal := Terminal.all[i]?

def Terminal.maxIndex : Nat := Terminal.endOfFile.index

theorem Terminal.index_lt (k : Terminal) : k.index < Terminal.all.length := by
  cases k <;> decide

@[simp] theorem Terminal.ofIndex?_index (k : Terminal) : Terminal.ofIndex? k.index = some k := by
  cases k <;> rfl

theorem Terminal.mem_all (k : Terminal) : k ∈ Terminal.all :=
  List.mem_of_getElem? k.ofIndex?_index

theorem Terminal.index_injective {a b : Terminal} (h : a.index = b.index) : a = b := by
  have hb := b.ofIndex?_index
  rw [← h, a.ofIndex?_index] at hb
  exact Option.some.inj hb

instance : Ord Terminal where
  compare a b := compare a.index b.index

instance : LE Terminal where
  le a b := a.index ≤ b.index

instance (a b : Terminal) : Decidable (a ≤ b) :=
  inferInstanceAs (Decidable (a.index ≤ b.index))

/-- The same terminals by increasing index, each as often as before. -/
def Terminal.sort (ks : List Terminal) : List Terminal := ks.mergeSort (fun a b => decide (a ≤ b))

/-- The reserved words are declared side by side, from `AND` to `WITH`. -/
def Terminal.isReserved (k : Terminal) : Bool :=
  decide (Terminal.AND ≤ k) && decide (k ≤ Terminal.WITH)

end PanicMode
