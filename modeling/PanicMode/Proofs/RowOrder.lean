import Mathlib.Algebra.BigOperators.Group.List.Basic
import PanicMode.Proofs.RawLookup
import PanicMode.Proofs.RowByRow

namespace PanicMode

/-- What is reported of a table about one rule. -/
def Table.reports (t : Table) (rule : Rule) : List Violation :=
  t.violations.filter (·.rule = rule)

/-- The rows that are not at their ordinals, from the top. -/
def Table.displaced (t : Table) : List Violation :=
  (List.finRange t.length).flatMap fun p =>
    if (t.get p).situation.ordinal = p then []
    else [.outOfPosition (t.get p).name p (t.get p).situation.ordinal]

section

variable {r : Row} {above : List Row} {p : Nat} {v : Violation}

/-- What is wrong with the set of a row is wrong with it wherever the row stands. -/
theorem Row.Departs.elsewhere (h : r.Departs above p v)
    (hv : v.rule ∉ [.position, .named, .distinct]) (others : List Row) (q : Nat) :
    r.Departs others q v := by
  cases h with
  | outOfPosition moved => simp [Violation.rule] at hv
  | emptyName unnamed => simp [Violation.rule] at hv
  | duplicateName named seen => simp [Violation.rule] at hv
  | emptySet empty => exact .emptySet empty
  | endOfFile hk => exact .endOfFile hk
  | error hk => exact .error hk

theorem count_departures_alone (hv : v.rule ∉ [.position, .named, .distinct]) :
    (r.departures above p).count v = (r.departures [] 0).count v := by
  have same : r.Departs above p v ↔ r.Departs [] 0 v :=
    ⟨fun h => h.elsewhere hv [] 0, fun h => h.elsewhere hv above p⟩
  rw [nodup_departures.count, nodup_departures.count]
  exact if_congr (mem_departures_iff.trans (same.trans mem_departures_iff.symm)) rfl rfl

theorem countP_named_departures :
    (r.departures above p).countP (·.rule = .named) = if r.name = "" then 1 else 0 := by
  simp [Row.departures, apply_ite (List.countP _), Violation.rule]

theorem filter_position_departures :
    (r.departures above p).filter (·.rule = .position) =
      if r.situation.ordinal = p then [] else [.outOfPosition r.name p r.situation.ordinal] := by
  simp [Row.departures, apply_ite (List.filter _), Violation.rule]

end

section

variable {t u : Table} {v : Violation} {rule : Rule}

/-- What can be told of each row alone adds up over the rows. -/
theorem countP_rowDepartures {q : Violation → Bool} {f : Row → Nat}
    (alone : ∀ r above p, (r.departures above p).countP q = f r) (t : Table) :
    t.rowDepartures.countP q = (t.map f).sum := by
  have rows : t.map f = (List.finRange t.length).map (f ∘ t.get) := by
    rw [← List.map_map, List.map_get_finRange]
  rw [rows, Table.rowDepartures, List.countP_flatMap]
  exact congrArg List.sum (List.map_congr_left fun p _ => alone _ _ _)

theorem countP_rowDepartures_of_perm {q : Violation → Bool} {f : Row → Nat}
    (alone : ∀ r above p, (r.departures above p).countP q = f r) (h : t.Perm u) :
    t.rowDepartures.countP q = u.rowDepartures.countP q := by
  rw [countP_rowDepartures alone, countP_rowDepartures alone, (h.map f).sum_eq]

theorem lengthDepartures_of_perm (h : t.Perm u) : t.lengthDepartures = u.lengthDepartures := by
  rw [Table.lengthDepartures, Table.lengthDepartures, h.length_eq]

/-- Of the rows with one name all but one are reported, whichever of them stands on top. -/
theorem count_duplicateName_of_perm (h : t.Perm u) (name : String) :
    t.violations.count (.duplicateName name) = u.violations.count (.duplicateName name) := by
  by_cases named : name = ""
  · rw [named, List.count_eq_zero.mpr (duplicateName_empty_not_mem t),
      List.count_eq_zero.mpr (duplicateName_empty_not_mem u)]
  · rw [count_duplicateName_violations t named, count_duplicateName_violations u named,
      h.countP_eq]

theorem count_violations_of_perm (h : t.Perm u) (hv : v.rule ∉ [.position, .named]) :
    t.violations.count v = u.violations.count v := by
  by_cases distinct : v.rule = .distinct
  · cases v with
    | duplicateName name => exact count_duplicateName_of_perm h name
    | _ => cases distinct
  · have alone : v.rule ∉ [.position, .named, .distinct] := by simpa [distinct] using hv
    have rows : t.rowDepartures.count v = u.rowDepartures.count v :=
      countP_rowDepartures_of_perm (fun r above p => count_departures_alone alone) h
    rw [violations_eq_departures_append, violations_eq_departures_append, List.count_append,
      List.count_append, lengthDepartures_of_perm h, rows]

theorem count_reports (t : Table) (rule : Rule) (v : Violation) :
    (t.reports rule).count v = if v.rule = rule then t.violations.count v else 0 := by
  by_cases same : v.rule = rule
  · rw [if_pos same, Table.reports, List.count_filter (by simpa using same)]
  · rw [if_neg same, List.count_eq_zero]
    exact fun hv => same (of_decide_eq_true (List.mem_filter.mp hv).2)

theorem reports_perm_of_perm (h : t.Perm u) (hr : rule ∉ [.position, .named]) :
    (t.reports rule).Perm (u.reports rule) := by
  rw [List.perm_iff_count]
  intro v
  rw [count_reports, count_reports]
  split
  next same => rw [count_violations_of_perm h (same ▸ hr)]
  next => rfl

theorem rule_of_mem_lengthDepartures (hv : v ∈ t.lengthDepartures) : v.rule = .length := by
  unfold Table.lengthDepartures at hv
  split at hv
  next => cases hv
  next => rw [List.mem_singleton.mp hv, Violation.rule]

theorem rule_of_mem_rowDepartures (hv : v ∈ t.rowDepartures) : v.rule ≠ .length := by
  obtain ⟨p, departs⟩ := mem_rowDepartures_iff.mp hv
  cases departs <;> simp [Violation.rule]

theorem reports_length (t : Table) : t.reports .length = t.lengthDepartures := by
  have length : t.lengthDepartures.filter (·.rule = .length) = t.lengthDepartures :=
    List.filter_eq_self.mpr fun v hv => decide_eq_true (rule_of_mem_lengthDepartures hv)
  have rows : t.rowDepartures.filter (·.rule = .length) = [] :=
    List.filter_eq_nil_iff.mpr fun v hv told =>
      rule_of_mem_rowDepartures hv (of_decide_eq_true told)
  rw [Table.reports, violations_eq_departures_append, List.filter_append, length, rows,
    List.append_nil]

theorem reports_eq (hr : rule ≠ .length) :
    t.reports rule = t.rowDepartures.filter (·.rule = rule) := by
  have length : t.lengthDepartures.filter (·.rule = rule) = [] :=
    List.filter_eq_nil_iff.mpr fun v hv told =>
      hr ((of_decide_eq_true told).symm.trans (rule_of_mem_lengthDepartures hv))
  rw [Table.reports, violations_eq_departures_append, List.filter_append, length, List.nil_append]

theorem reports_position (t : Table) : t.reports .position = t.displaced := by
  rw [reports_eq (by decide), Table.rowDepartures, List.filter_flatMap]
  simp only [filter_position_departures]
  rfl

theorem length_reports_named_of_perm (h : t.Perm u) :
    (t.reports .named).length = (u.reports .named).length := by
  rw [reports_eq (by decide), reports_eq (by decide), ← List.countP_eq_length_filter,
    ← List.countP_eq_length_filter]
  exact countP_rowDepartures_of_perm (fun r above p => countP_named_departures) h

/-- Rows that are only moved break no other rule than that of position. -/
theorem rule_eq_position_of_perm (h : t.Perm u) (clean : t.violations = [])
    (hv : v ∈ u.violations) : v.rule = .position := by
  by_contra moved
  by_cases named : v.rule = .named
  · have unnamed : (u.reports .named).length = 0 := by
      rw [← length_reports_named_of_perm h, Table.reports, clean]
      rfl
    have told : v ∈ u.reports .named := List.mem_filter.mpr ⟨hv, decide_eq_true named⟩
    rw [List.length_eq_zero_iff.mp unnamed] at told
    cases told
  · have counted := count_violations_of_perm h (v := v) (by simp [moved, named])
    rw [clean, List.count_nil] at counted
    exact List.count_eq_zero.mp counted.symm hv

end

/-- The order of the rows is seen in what is said of their positions only. If nothing is wrong with
a table, then in another order of its rows those that are not at their ordinals are reported from
the top, and nothing else. -/
theorem row_order_seen_in_positions {t u : Table} (h : t.Perm u) :
    t.reports .length = u.reports .length ∧
    (t.reports .distinct).Perm (u.reports .distinct) ∧
    (t.reports .inhabited).Perm (u.reports .inhabited) ∧
    (t.reports .resuming).Perm (u.reports .resuming) ∧
    (t.reports .named).length = (u.reports .named).length ∧
    (t.violations = [] → u.violations = u.displaced) := by
  refine ⟨?_, reports_perm_of_perm h (by decide), reports_perm_of_perm h (by decide),
    reports_perm_of_perm h (by decide), length_reports_named_of_perm h, fun clean => ?_⟩
  · rw [reports_length, reports_length, lengthDepartures_of_perm h]
  · have moved : u.reports .position = u.violations :=
      List.filter_eq_self.mpr fun v hv => decide_eq_true (rule_eq_position_of_perm h clean hv)
    rw [← moved, reports_position]

/-- The table with its last two rows exchanged. -/
def exchangedTable : Table := syncTable.take 15 ++ (syncTable.drop 15).reverse

theorem exchanged_rows_reported :
    syncTable.Perm exchangedTable ∧ syncTable.violations = [] ∧
    exchangedTable.violations = [.outOfPosition "for-loop-body" 15 16,
      .outOfPosition "elsif-or-else-or-end" 16 15] ∧
    patchedTable.Perm patchedTable.reverse ∧
    Table.reports patchedTable.reverse .distinct = [.duplicateName "list"] ∧
    (patchedTable.reports .distinct).Perm [.duplicateName "list"] := by
  have rows : syncTable.Perm exchangedTable :=
    (List.Perm.of_eq (List.take_append_drop 15 syncTable).symm).trans
      ((List.reverse_perm _).symm.append_left _)
  have turned : patchedTable.Perm patchedTable.reverse := (List.reverse_perm _).symm
  have once : Table.reports patchedTable.reverse .distinct = [.duplicateName "list"] :=
    (reports_eq (by decide)).trans (by decide +kernel)
  obtain ⟨_, _, _, _, _, displaced⟩ := row_order_seen_in_positions rows
  obtain ⟨_, distinct, _⟩ := row_order_seen_in_positions turned
  exact ⟨rows, violations_syncTable, (displaced violations_syncTable).trans (by decide +kernel),
    turned, once, once ▸ distinct⟩

end PanicMode
