import Mathlib.Data.List.FinRange
import PanicMode.Proofs.Departures
import PanicMode.Proofs.FiniteMembers

namespace PanicMode

/-- The place of a violation among those of one row. -/
def Violation.rank : Violation → Nat
  | .wrongLength _ _ => 0
  | .outOfPosition _ _ _ => 1
  | .emptyName _ | .duplicateName _ => 2
  | .emptySet _ => 3
  | .nonResuming _ .endOfFile => 4
  | .nonResuming _ _ => 5

/-- What is wrong with the rows, row by row from the top. -/
def Table.rowDepartures (t : Table) : List Violation :=
  (List.finRange t.length).flatMap fun p => (t.get p).departures (t.take p) p

section

variable {r : Row} {above : List Row} {p : Nat} {v : Violation}

theorem map_rank_ite_sublist {c : Prop} [Decidable c] {n : Nat} (h : v.rank = n) :
    ((if c then [v] else []).map Violation.rank).Sublist [n] := by
  split
  next => simp [h]
  next => simp

/-- A row is held against its rules in one order, and against each of them once. -/
theorem map_rank_departures_sublist :
    ((r.departures above p).map Violation.rank).Sublist [1, 2, 3, 4, 5] := by
  have position : ((if r.situation.ordinal = p then []
      else [Violation.outOfPosition r.name p r.situation.ordinal]).map Violation.rank).Sublist
        [1] := by
    rw [← ite_not]
    exact map_rank_ite_sublist rfl
  have names : ((if r.name = "" then [Violation.emptyName p]
      else if ∃ q ∈ above, q.name = r.name then [.duplicateName r.name] else []).map
        Violation.rank).Sublist [2] := by
    split
    next => exact List.Sublist.refl _
    next => exact map_rank_ite_sublist rfl
  simp only [Row.departures, List.map_append]
  exact (((position.append names).append (map_rank_ite_sublist rfl)).append
    (map_rank_ite_sublist rfl)).append (map_rank_ite_sublist rfl)

theorem nodup_departures : (r.departures above p).Nodup := by
  have ranks : [1, 2, 3, 4, 5].Nodup := by decide
  exact (ranks.sublist map_rank_departures_sublist).of_map

theorem departs_duplicateName_iff {name : String} :
    r.Departs above p (.duplicateName name) ↔
      name ≠ "" ∧ r.name = name ∧ ∃ q ∈ above, q.name = name := by
  refine ⟨fun h => ?_, fun h => ?_⟩
  · cases h with
    | duplicateName named seen => exact ⟨named, rfl, seen⟩
  · obtain ⟨named, same, seen⟩ := h
    subst same
    exact .duplicateName named seen

theorem departs_emptySet_iff : r.Departs above p (.emptySet r.name) ↔ r.set = ∅ := by
  refine ⟨fun h => ?_, fun empty => .emptySet empty⟩
  cases h with
  | emptySet empty => exact empty

end

section

variable {t : Table} {r : Row} {p : Nat}

theorem rowDepartures_eq_flatMap_reportedAt (t : Table) :
    t.rowDepartures = (List.range t.length).flatMap t.reportedAt := by
  rw [← List.map_coe_finRange_eq_range, List.flatMap_map]
  refine List.flatMap_congr fun p _ => ?_
  exact (reportedAt_eq_departures (List.getElem?_eq_getElem p.isLt)).symm

theorem violations_eq_departures_append (t : Table) :
    t.violations = t.lengthDepartures ++ t.rowDepartures := by
  rw [violations_eq_flatMap, rowDepartures_eq_flatMap_reportedAt]

theorem reportedAt_append_singleton (hp : p < t.length) :
    Table.reportedAt (t ++ [r]) p = t.reportedAt p := by
  rw [Table.reportedAt, Table.reportedAt, List.getElem?_append_left hp,
    List.take_append_of_le_length (Nat.le_of_lt hp)]

/-- A row at the bottom changes nothing above it. -/
theorem rowDepartures_append_singleton :
    Table.rowDepartures (t ++ [r]) = t.rowDepartures ++ r.departures t t.length := by
  have last : Table.reportedAt (t ++ [r]) t.length = r.departures t t.length := by
    have found : (t ++ [r])[t.length]? = some r := by simp
    rw [reportedAt_eq_departures found, List.take_left]
  have upper : (List.range t.length).flatMap (Table.reportedAt (t ++ [r])) =
      (List.range t.length).flatMap t.reportedAt :=
    List.flatMap_congr fun p hp => reportedAt_append_singleton (List.mem_range.mp hp)
  rw [rowDepartures_eq_flatMap_reportedAt, rowDepartures_eq_flatMap_reportedAt,
    List.length_append, List.length_singleton, List.range_succ, List.flatMap_append, upper,
    List.flatMap_singleton, last]

end

/-- Of the rows with one name all but the topmost are reported. -/
theorem count_duplicateName_rowDepartures (t : Table) {name : String} (named : name ≠ "") :
    t.rowDepartures.count (.duplicateName name) = t.countP (fun r => r.name == name) - 1 := by
  induction t using List.reverseRecOn with
  | nil => rfl
  | append_singleton t r ih =>
    have above : (∃ q ∈ t, q.name = name) ↔ 0 < t.countP (fun r => r.name == name) := by
      simp [List.countP_pos_iff]
    rw [rowDepartures_append_singleton, List.count_append, ih, nodup_departures.count,
      List.countP_append, List.countP_singleton]
    simp only [mem_departures_iff, departs_duplicateName_iff, above, beq_iff_eq]
    by_cases same : r.name = name
    · by_cases seen : 0 < t.countP (fun r => r.name == name)
      · rw [if_pos ⟨named, same, seen⟩, if_pos same]
        omega
      · rw [if_neg fun h => seen h.2.2, if_pos same]
        omega
    · rw [if_neg fun h => same h.2.1, if_neg same]
      rfl

theorem duplicateName_not_mem_lengthDepartures (t : Table) (name : String) :
    .duplicateName name ∉ t.lengthDepartures := by
  unfold Table.lengthDepartures
  split
  next => exact List.not_mem_nil
  next => simp

theorem count_duplicateName_violations (t : Table) {name : String} (named : name ≠ "") :
    t.violations.count (.duplicateName name) = t.countP (fun r => r.name == name) - 1 := by
  have length : t.lengthDepartures.count (.duplicateName name) = 0 :=
    List.count_eq_zero.mpr (duplicateName_not_mem_lengthDepartures t name)
  rw [violations_eq_departures_append, List.count_append, length, Nat.zero_add,
    count_duplicateName_rowDepartures t named]

theorem mem_rowDepartures_iff {t : Table} {v : Violation} :
    v ∈ t.rowDepartures ↔ ∃ p : Fin t.length, (t.get p).Departs (t.take p) p v := by
  simp only [Table.rowDepartures, List.mem_flatMap, List.mem_finRange, true_and,
    mem_departures_iff]

theorem duplicateName_empty_not_mem (t : Table) : .duplicateName "" ∉ t.violations := by
  rw [violations_eq_departures_append, List.mem_append, not_or]
  refine ⟨duplicateName_not_mem_lengthDepartures t "", fun h => ?_⟩
  obtain ⟨p, departs⟩ := mem_rowDepartures_iff.mp h
  exact (departs_duplicateName_iff.mp departs).1 rfl

/-- The pass reports the length of the table and then, row by row, everything that is wrong with a
row, each thing once. A name is reported at every row that has it but the topmost. -/
theorem violations_row_by_row (t : Table) :
    t.violations = t.lengthDepartures ++
      (List.finRange t.length).flatMap (fun p => (t.get p).departures (t.take p) p) ∧
    (∀ p : Fin t.length, ((t.get p).departures (t.take p) p).Nodup ∧
      (∀ v, v ∈ (t.get p).departures (t.take p) p ↔ (t.get p).Departs (t.take p) p v) ∧
      ((t.get p).set.Built → ((t.get p).Departs (t.take p) p (.emptySet (t.get p).name) ↔
        ∀ k, k ∉ (t.get p).set))) ∧
    (∀ name, name ≠ "" →
      t.violations.count (.duplicateName name) = t.countP (fun r => r.name == name) - 1) ∧
    .duplicateName "" ∉ t.violations := by
  refine ⟨violations_eq_departures_append t, fun p => ⟨nodup_departures, ?_, ?_⟩,
    fun name named => count_duplicateName_violations t named, duplicateName_empty_not_mem t⟩
  · exact fun v => mem_departures_iff
  · exact fun built => departs_emptySet_iff.trans built.eq_empty_iff

/-- A table with every kind of violation. -/
def patchedTable : Table :=
  [⟨.commaOrSemicolon, "list", ∅⟩, ⟨.importOrIdentOrSemicolon, "", .ofList [.END]⟩,
    ⟨.identOrSemicolon, "list", .ofList [.error, .comma, .endOfFile]⟩]

theorem patchedTable_reported :
    patchedTable.violations = [.wrongLength 17 3, .outOfPosition "list" 0 3, .emptySet "list",
      .emptyName 1, .duplicateName "list", .nonResuming "list" .endOfFile,
      .nonResuming "list" .error] ∧
    (∅ : TerminalSet).Built ∧
    (patchedTable.get ⟨0, by decide⟩).Departs [] 0 (.emptySet "list") ∧
    "list" ≠ "" ∧ patchedTable.violations.count (.duplicateName "list") = 1 := by
  have built : (∅ : TerminalSet).Built := .ofList []
  have named : "list" ≠ "" := by decide
  obtain ⟨listed, rows, counted, _⟩ := violations_row_by_row patchedTable
  obtain ⟨_, _, empty⟩ := rows ⟨0, by decide⟩
  refine ⟨listed.trans ?_, built, (empty built).mpr TerminalSet.not_mem_empty, named,
    (counted "list" named).trans ?_⟩
  · decide +kernel
  · rfl

end PanicMode
