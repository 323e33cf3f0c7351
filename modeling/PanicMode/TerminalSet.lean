import PanicMode.Terminal

namespace PanicMode

/-- A set of terminals as a word of 128 bits: bit `i` stands for the terminal with index `i`. -/
structure TerminalSet where
  bits : BitVec 128
deriving DecidableEq, Repr

/-- The word in which only the bit of one terminal is set. -/
def Terminal.bit (k : Terminal) : BitVec 128 := 1#128 <<< k.index

namespace TerminalSet

def empty : TerminalSet := ⟨0#128⟩

instance : EmptyCollection TerminalSet := ⟨empty⟩

instance : Inhabited TerminalSet := ⟨∅⟩

def insert (s : TerminalSet) (k : Terminal) : TerminalSet := ⟨s.bits ||| k.bit⟩

def union (s t : TerminalSet) : TerminalSet := ⟨s.bits ||| t.bits⟩

instance : Union TerminalSet := ⟨union⟩

/-- The set of the listed terminals. Listing one twice changes nothing. -/
def ofList (ks : List Terminal) : TerminalSet := ks.foldl insert ∅

def contains (s : TerminalSet) (k : Terminal) : Bool := s.bits &&& k.bit != 0#128

instance : Membership Terminal TerminalSet where
  mem s k := s.contains k = true

instance (k : Terminal) (s : TerminalSet) : Decidable (k ∈ s) :=
  inferInstanceAs (Decidable (s.contains k = true))

def isEmpty (s : TerminalSet) : Bool := s.bits == 0#128

def card (s : TerminalSet) : Nat := s.bits.cpop.toNat

end TerminalSet

end PanicMode
