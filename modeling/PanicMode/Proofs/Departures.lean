import Mathlib.Data.List.Induction
import PanicMode.Proofs.SetMembers
import PanicMode.Proofs.WellFormed
import PanicMode.Violation

namespace PanicMode

/-- What is asked of a table. -/
inductive Rule where
  | length
  | position
  | named
  | distinct
  | inhabited
  | resuming
deriving DecidableEq, Repr

/-- The rule that a violation is about. -/
def Violation.rule : Violation → Rule
  | .wrongLength _ _ => .length
  | .outOfPosition _ _ _ => .position
  | .emptyName _ => .named
  | .duplicateName _ => .distinct
  | .emptySet _ => .inhabited
  | .nonResuming _ _ => .resuming

/-- What is wrong with a row at a position below the rows `above`. -/
def Row.departures (r : Row) (above : List Row) (p : Nat) : List Violation :=
  (if r.situation.ordinal = p then [] else [.outOfPosition r.name p r.situation.ordinal]) ++
    (if r.name = "" then [.emptyName p]
      else if ∃ q ∈ above, q.name = r.name then [.duplicateName r.name] else []) ++
    (if r.set = ∅ then [.emptySet r.name] else []) ++
    (if .endOfFile ∈ r.set then [.nonResuming r.name .endOfFile] else []) ++
    (if .error ∈ r.set then [.nonResuming r.name .error] else [])

/-- The violation is one thing wrong with the row at position `p`, whatever else is wrong with it. -/
inductive Row.Departs (r : Row) (above : List Row) (p : Nat) : Violation → Prop where
  | outOfPosition (moved : r.situation.ordinal ≠ p) :
      Departs r above p (.outOfPosition r.name p r.situation.ordinal)
  | emptyName (unnamed : r.name = "") : Departs r above p (.emptyName p)
  | duplicateName (named : r.name ≠ "") (seen : ∃ q ∈ above, q.name = r.name) :
      Departs r above p (.duplicateName r.name)
  | emptySet (empty : r.set = ∅) : Departs r above p (.emptySet r.name)
  | endOfFile (hk : .endOfFile ∈ r.set) : Departs r above p (.nonResuming r.name .endOfFile)
  | error (hk : .error ∈ r.set) : Departs r above p (.nonResuming r.name .error)

/-- The names remembered once the rows above have been passed. -/
def namesSeen (above : List Row) : SeenNames :=
  above.foldl Row.addName ∅

/-- What the pass over the table reports at the row of a position. -/
def Table.reportedAt (t : Table) (p : Nat) : List Violation :=
  match t[p]? with
  | some r => r.violations (namesSeen (t.take p)) p
  | none => []

def Table.lengthDepartures (t : Table) : List Violation :=
  if t.length = 17 then [] else [.wrongLength 17 t.length]

/-- The names seen are the names of the rows above, the empty one left out. -/
def Remembers (seen : SeenNames) (above : List Row) : Prop :=
  ∀ name, seen.contains name = true ↔ name ≠ "" ∧ ∃ q ∈ above, q.name = name

theorem mem_departures_iff {r : Row} {above : List Row} {p : Nat} {v : Violation} :
    v ∈ r.departures above p ↔ r.Departs above p v := by
  simp only [Row.departures, List.mem_append, List.mem_ite_nil_left, List.mem_ite_nil_right,
    List.mem_singleton]
  refine ⟨fun h => ?_, fun h => ?_⟩
  · rcases h with (((⟨moved, same⟩ | named) | ⟨empty, same⟩) | ⟨hk, same⟩) | ⟨hk, same⟩
    · exact same ▸ .outOfPosition moved
    · split at named
      next unnamed => exact List.mem_singleton.mp named ▸ .emptyName unnamed
      next filled =>
        obtain ⟨seen, same⟩ := List.mem_ite_nil_right.mp named
        exact List.mem_singleton.mp same ▸ .duplicateName filled seen
    · exact same ▸ .emptySet empty
    · exact same ▸ .endOfFile hk
    · exact same ▸ .error hk
  · cases h with
    | outOfPosition moved => simp [moved]
    | emptyName unnamed => simp [unnamed]
    | duplicateName named seen => simp [named, seen]
    | emptySet empty => simp [empty]
    | endOfFile hk => simp [hk]
    | error hk => simp [hk]

theorem namesSeen_append_singleton {above : List Row} {r : Row} :
    namesSeen (above ++ [r]) = r.addName (namesSeen above) := by
  simp [namesSeen]

theorem remembers_addName {seen : SeenNames} {above : List Row} (h : Remembers seen above)
    (r : Row) : Remembers (r.addName seen) (above ++ [r]) := by
  intro name
  unfold Row.addName
  split
  next hempty =>
    have empty := String.isEmpty_iff.mp hempty
    rw [h name]
    refine and_congr_right fun hne => ?_
    simp only [List.mem_append, List.mem_singleton, or_and_right, exists_or, exists_eq_left, empty]
    exact (or_iff_left (Ne.symm hne)).symm
  next hempty =>
    have named : r.name ≠ "" := fun empty => hempty (String.isEmpty_iff.mpr empty)
    rw [Std.HashSet.contains_insert, Bool.or_eq_true, beq_iff_eq, h name]
    simp only [List.mem_append, List.mem_singleton, or_and_right, exists_or, exists_eq_left]
    refine ⟨fun hh => ?_, fun hh => ?_⟩
    · rcases hh with same | ⟨hne, hq⟩
      · exact ⟨same ▸ named, Or.inr same⟩
      · exact ⟨hne, Or.inl hq⟩
    · obtain ⟨hne, hq | same⟩ := hh
      · exact Or.inr ⟨hne, hq⟩
      · exact Or.inl same

theorem remembers_namesSeen (above : List Row) : Remembers (namesSeen above) above := by
  induction above using List.reverseRecOn with
  | nil =>
    intro name
    simp [namesSeen]
  | append_singleton above r ih =>
    rw [namesSeen_append_singleton]
    exact remembers_addName ih r

theorem violations_eq_departures {seen : SeenNames} {above : List Row} (h : Remembers seen above)
    (r : Row) (p : Nat) : r.violations seen p = r.departures above p := by
  have names : (if r.name.isEmpty then [Violation.emptyName p]
      else if seen.contains r.name then [.duplicateName r.name] else []) =
      if r.name = "" then [.emptyName p]
      else if ∃ q ∈ above, q.name = r.name then [.duplicateName r.name] else [] := by
    by_cases named : r.name = ""
    · simp [named]
    · simp only [String.isEmpty_iff, named, if_false, h r.name, ne_eq, not_false_iff, true_and]
  have sets : (nonResuming.filter r.set.contains).map (Violation.nonResuming r.name) =
      (if .endOfFile ∈ r.set then [.nonResuming r.name .endOfFile] else []) ++
        (if .error ∈ r.set then [.nonResuming r.name .error] else []) := by
    by_cases heof : Terminal.endOfFile ∈ r.set <;> by_cases herr : Terminal.error ∈ r.set <;>
      simp [nonResuming, heof, herr]
  unfold Row.violations Row.departures
  rw [names, sets]
  simp only [TerminalSet.isEmpty_iff, ne_eq, ite_not, List.append_assoc]

theorem reportedAt_eq_departures {t : Table} {p : Nat} {r : Row} (hr : t[p]? = some r) :
    t.reportedAt p = r.departures (t.take p) p := by
  simp only [Table.reportedAt, hr]
  exact violations_eq_departures (remembers_namesSeen _) r p

theorem reportedAt_append_cons {above rest : List Row} {r : Row} :
    Table.reportedAt (above ++ r :: rest) above.length =
      r.violations (namesSeen above) above.length := by
  simp [Table.reportedAt]

/-- The pass over the rest of the rows reports row by row. -/
theorem rowViolations_eq_flatMap (above : List Row) {rest : List Row} :
    Table.rowViolations (namesSeen above) above.length rest =
      (List.range' above.length rest.length).flatMap (Table.reportedAt (above ++ rest)) := by
  induction rest generalizing above with
  | nil => rfl
  | cons r rest ih =>
    have shift : above ++ r :: rest = (above ++ [r]) ++ rest := by simp
    have hh := ih (above ++ [r])
    rw [List.length_append, List.length_singleton, namesSeen_append_singleton, ← shift] at hh
    rw [Table.rowViolations, hh, List.length_cons, List.range'_succ, List.flatMap_cons,
      reportedAt_append_cons]

theorem violations_eq_flatMap (t : Table) :
    t.violations = t.lengthDepartures ++ (List.range t.length).flatMap t.reportedAt := by
  have rows : Table.rowViolations ∅ 0 t = (List.range t.length).flatMap t.reportedAt := by
    rw [List.range_eq_range']
    exact rowViolations_eq_flatMap []
  have length : (if t.length ≠ Situation.count then
      [Violation.wrongLength Situation.count t.length] else []) = t.lengthDepartures :=
    ite_not ..
  rw [Table.violations, rows, length]

end PanicMode
