import PanicMode.Cursor

namespace PanicMode

/-- Cursors of which only the top one moves. There is always one. -/
structure CursorStack where
  top : Cursor
  below : List Cursor
deriving DecidableEq, Repr

/-- What can be asked of a stack of cursors. -/
inductive CursorStep where
  | next
  | sizeHint
  | rest
  | push
  | pop
deriving DecidableEq, Repr

inductive CursorAnswer where
  | next (k? : Option Terminal)
  | sizeHint (lower : Nat) (upper? : Option Nat)
  | rest (ks : List Terminal)
  | height (n : Nat)
deriving DecidableEq, Repr

namespace CursorStack

def ofSet (s : TerminalSet) : CursorStack := ⟨s.cursor, []⟩

def height (c : CursorStack) : Nat := c.below.length + 1

def push (c : CursorStack) : CursorStack := ⟨c.top, c.top :: c.below⟩

/-- Drops the top cursor, unless it is the only one. -/
def pop (c : CursorStack) : CursorStack :=
  match c.below with
  | [] => c
  | d :: ds => ⟨d, ds⟩

def step (c : CursorStack) : CursorStep → CursorAnswer × CursorStack
  | .next => (.next c.top.next.1, ⟨c.top.next.2, c.below⟩)
  | .sizeHint => (.sizeHint c.top.sizeHint.1 c.top.sizeHint.2, c)
  | .rest => (.rest c.top.toList, c)
  | .push => (.height c.push.height, c.push)
  | .pop => (.height c.pop.height, c.pop)

def answers (c : CursorStack) : List CursorStep → List CursorAnswer
  | [] => []
  | a :: rest => (c.step a).1 :: (c.step a).2.answers rest

end CursorStack

end PanicMode
