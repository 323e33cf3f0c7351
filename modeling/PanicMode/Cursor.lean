import PanicMode.TerminalSet

namespace PanicMode

/-- A walk through a set of terminals, by increasing index. The word holds what is still to come. -/
structure Cursor where
  bits : BitVec 128
deriving DecidableEq, Repr

def clearLowest (b : BitVec 128) : BitVec 128 := b &&& (b - 1#128)

theorem clearLowest_lt {b : BitVec 128} (h : b ≠ 0#128) : (clearLowest b).toNat < b.toNat := by
  have hb : b.toNat ≠ 0 := fun e => h (BitVec.eq_of_toNat_eq e)
  have hw := b.isLt
  have hs : (b - 1#128).toNat = b.toNat - 1 := by
    rw [BitVec.toNat_sub]
    simp only [BitVec.toNat_ofNat]
    omega
  have hl : (clearLowest b).toNat ≤ b.toNat - 1 := by
    rw [clearLowest, BitVec.toNat_and, hs]
    exact Nat.and_le_right
  omega

namespace Cursor

/-- Takes the lowest set bit. The answer is the terminal with that index, and none when no bit is
left or when no terminal has that index. -/
def next (c : Cursor) : Option Terminal × Cursor :=
  if c.bits = 0#128 then (none, c)
  else (Terminal.ofIndex? c.bits.ctz.toNat, ⟨clearLowest c.bits⟩)

def remaining (c : Cursor) : Nat := c.bits.cpop.toNat

/-- A lower and an upper bound on what is still to come. -/
def sizeHint (c : Cursor) : Nat × Option Nat := (c.remaining, some c.remaining)

theorem next_lt {c rest : Cursor} {k : Terminal} (h : c.next = (some k, rest)) :
    rest.bits.toNat < c.bits.toNat := by
  unfold next at h
  split at h
  next => cases h
  next hne =>
    have he := (Prod.mk.inj h).2
    subst he
    exact clearLowest_lt hne

/-- What is still to come, up to the first answer that is none. -/
def toList (c : Cursor) : List Terminal :=
  match _h : c.next with
  | (some k, rest) => k :: rest.toList
  | (none, _) => []
termination_by c.bits.toNat
decreasing_by exact next_lt _h

end Cursor

def TerminalSet.cursor (s : TerminalSet) : Cursor := ⟨s.bits⟩

def TerminalSet.toList (s : TerminalSet) : List Terminal := s.cursor.toList

end PanicMode
