import PanicMode.SyncTable

namespace PanicMode

/-- One step in building a set of terminals. Situations are given by their ordinal. -/
inductive SetEdit where
  | replace (ks : List Terminal)
  | replaceBySituation (n : Int)
  | insert (k : Terminal)
  | insertAll (ks : List Terminal)
  | insertSituation (n : Int)
deriving DecidableEq, Repr

namespace SetEdit

/-- The edited set, unless an ordinal is invalid. -/
def apply (s : TerminalSet) : SetEdit → Except InvalidOrdinal TerminalSet
  | .replace ks => .ok (.ofList ks)
  | .replaceBySituation n => Situation.setAt n
  | .insert k => .ok (s.insert k)
  | .insertAll ks => .ok (s ∪ .ofList ks)
  | .insertSituation n => (Situation.setAt n).map (s ∪ ·)

/-- A refused edit leaves the set as it was. -/
def step (s : TerminalSet) (e : SetEdit) : TerminalSet :=
  match e.apply s with
  | .ok t => t
  | .error _ => s

def run (es : List SetEdit) : TerminalSet := es.foldl step ∅

end SetEdit

end PanicMode
