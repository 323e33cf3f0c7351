namespace PanicMode

/-- The situations in which the parser may have to recover, named for where it can go on. -/
inductive Situation where
  | importOrDefinitionOrEnd
  | importOrIdentOrSemicolon
  | identOrSemicolon
  | commaOrSemicolon
  | definitionOrIdentOrSemicolon
  | definitionOrSemicolon
  | typeOrCommaOrOf
  | semicolonOrEnd
  | elseOrEnd
  | commaOrRightParen
  | colonOrSemicolon
  | importOrBlock
  | declarationOrIdentOrSemicolon
  | declarationOrSemicolon
  | firstOrFollowOfStatement
  | elsifOrElseOrEnd
  | forLoopBody
deriving DecidableEq, Repr

def Situation.all : List Situation :=
  [.importOrDefinitionOrEnd, .importOrIdentOrSemicolon, .identOrSemicolon, .commaOrSemicolon,
    .definitionOrIdentOrSemicolon, .definitionOrSemicolon, .typeOrCommaOrOf, .semicolonOrEnd,
    .elseOrEnd, .commaOrRightParen, .colonOrSemicolon, .importOrBlock,
    .declarationOrIdentOrSemicolon, .declarationOrSemicolon, .firstOrFollowOfStatement,
    .elsifOrElseOrEnd, .forLoopBody]

def Situation.count : Nat := Situation.all.length

/-- Position of a situation in the order of declaration. -/
def Situation.ordinal (d : Situation) : Nat := d.ctorIdx

instance : Ord Situation where
  compare a b := compare a.ordinal b.ordinal

/-- A number that is the ordinal of no situation. -/
structure InvalidOrdinal where
  value : Int
deriving DecidableEq, Repr

def InvalidOrdinal.message (e : InvalidOrdinal) : String :=
  "invalid resync set id " ++ toString e.value ++ ": expected an ordinal in 0.." ++
    toString Situation.count

namespace Situation

def ofOrdinal? (n : Int) : Option Situation :=
  all.find? (fun d => (d.ordinal : Int) == n)

/-- The situation with this ordinal. The number comes back in the error. -/
def ofOrdinal (n : Int) : Except InvalidOrdinal Situation :=
  match ofOrdinal? n with
  | some d => .ok d
  | none => .error ⟨n⟩

def isOrdinal (n : Int) : Bool := (ofOrdinal? n).isSome

theorem getElem?_all_ordinal (d : Situation) : all[d.ordinal]? = some d := by
  cases d <;> rfl

theorem ordinal_lt_count (d : Situation) : d.ordinal < count := by
  cases d <;> decide

theorem mem_all (d : Situation) : d ∈ all := List.mem_of_getElem? d.getElem?_all_ordinal

theorem ordinal_injective {a b : Situation} (h : a.ordinal = b.ordinal) : a = b := by
  have hb := b.getElem?_all_ordinal
  rw [← h, a.getElem?_all_ordinal] at hb
  exact Option.some.inj hb

end Situation

end PanicMode
