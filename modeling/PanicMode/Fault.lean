import PanicMode.Grammar
import PanicMode.Table

namespace PanicMode

/-- What can be wrong with one row of a table, in the order in which it is looked for. -/
inductive RowFault where
  /-- The list of situations has no situation of that ordinal at the position of the row. -/
  | unlisted
  | outOfPosition
  | emptyName
  | emptySet
  | nonResuming
  /-- A later row has the same name. -/
  | repeatedName
deriving DecidableEq, Repr

inductive Fault where
  | wrongLength
  | row (position : Nat) (fault : RowFault)
deriving DecidableEq, Repr

def RowFault.message : RowFault → String
  | .unlisted => "ResyncSetId::ALL must be in ordinal order"
  | .outOfPosition => "registry entry out of position"
  | .emptyName => "registry entry with empty name"
  | .emptySet => "registry entry with empty set"
  | .nonResuming => "registry entry contains an excluded token kind"
  | .repeatedName => "duplicate registry entry name"

def Fault.message : Fault → String
  | .wrongLength => "one registry entry per ResyncSetId"
  | .row _ f => f.message

/-- Whether the `n` bytes from index `i` on are the same in both arrays, and none if a byte that is
looked at is missing from one of them. -/
def bytesAgree? (a b : ByteArray) (i : Nat) : Nat → Option Bool
  | 0 => some true
  | n + 1 => do
    let x ← a[i]?
    let y ← b[i]?
    if x = y then bytesAgree? a b (i + 1) n else some false

/-- Byte-wise equality of texts: equally many bytes, and no two that differ. -/
def sameBytes (a b : String) : Bool :=
  a.toUTF8.size == b.toUTF8.size &&
    bytesAgree? a.toUTF8 b.toUTF8 0 a.toUTF8.size == some true

/-- The first fault of a row at position `i`, given the rows below it. -/
def Row.fault? (r : Row) (i : Nat) (later : List Row) : Option RowFault :=
  if Situation.all[i]?.map Situation.ordinal ≠ some i then some .unlisted
  else if r.situation.ordinal ≠ i then some .outOfPosition
  else if r.name.isEmpty then some .emptyName
  else if r.set.isEmpty then some .emptySet
  else if nonResuming.any r.set.contains then some .nonResuming
  else if later.any (fun q => sameBytes r.name q.name) then some .repeatedName
  else none

/-- The first faulty row, counted from `i`, with its first fault. -/
def Table.firstRowFault? (i : Nat) : Table → Option (Nat × RowFault)
  | [] => none
  | r :: later =>
    match r.fault? i later with
    | some f => some (i, f)
    | none => firstRowFault? (i + 1) later

def Table.validate (t : Table) : Except Fault Unit :=
  if t.length ≠ Situation.count then .error .wrongLength
  else match Table.firstRowFault? 0 t with
    | some (i, f) => .error (.row i f)
    | none => .ok ()

end PanicMode
