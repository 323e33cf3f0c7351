import PanicMode.Proofs.RawLookup
import PanicMode.Proofs.RowByRow

namespace PanicMode

/-- The report of a name that one of the rows has. -/
def clash (rows : List Row) (name : String) : List Violation :=
  if ∃ q ∈ rows, q.name = name then [.duplicateName name] else []

section

variable {rows above below : List Row} {r q old : Row} {p : Nat} {name : String}

theorem clash_of_fresh (fresh : ∀ q ∈ rows, q.name ≠ name) : clash rows name = [] := by
  refine if_neg fun taken => ?_
  obtain ⟨q, hq, same⟩ := taken
  exact fresh q hq same

theorem clash_of_mem (hq : q ∈ rows) (same : q.name = name) :
    clash rows name = [.duplicateName name] :=
  if_pos ⟨q, hq, same⟩

theorem clash_append_singleton_of_ne (differ : q.name ≠ name) :
    clash (rows ++ [q]) name = clash rows name := by
  simp [clash, or_and_right, exists_or, differ]

/-- A row without a name never clashes with rows that have one. -/
theorem departures_eq_append (named : ∀ q ∈ above, q.name ≠ "") :
    r.departures above p =
      (if r.situation.ordinal = p then [] else [.outOfPosition r.name p r.situation.ordinal]) ++
      (if r.name = "" then [.emptyName p] else []) ++ clash above r.name ++
      (if r.set = ∅ then [.emptySet r.name] else []) ++
      (if .endOfFile ∈ r.set then [.nonResuming r.name .endOfFile] else []) ++
      (if .error ∈ r.set then [.nonResuming r.name .error] else []) := by
  by_cases unnamed : r.name = ""
  · rw [unnamed, clash_of_fresh named]
    simp [Row.departures, unnamed]
  · simp [Row.departures, unnamed, clash]

/-- Of a row that is sound in itself only the name can be reported. -/
theorem Row.Sound.departures_eq (h : r.Sound p) : r.departures above p = clash above r.name := by
  simp only [Row.departures, if_pos h.inPosition, if_neg h.named, if_neg h.inhabited,
    if_neg h.noEndOfFile, if_neg h.noError, List.nil_append, List.append_nil, clash]

/-- One row is replaced in rows of which nothing was reported. The rows above it are as before, and
of the rows below it the one with the new name is reported, if there is one. -/
theorem rowDepartures_replace (clean : Table.rowDepartures (above ++ old :: below) = []) (r : Row) :
    Table.rowDepartures (above ++ r :: below) =
      r.departures above above.length ++ clash below r.name := by
  -- From the bottom: a row is held against the rows above it, so the last one can be taken away.
  induction below using List.reverseRecOn with
  | nil =>
    rw [rowDepartures_append_singleton, List.append_eq_nil_iff] at clean
    rw [rowDepartures_append_singleton, clean.1, clash_of_fresh (by simp), List.nil_append,
      List.append_nil]
  | append_singleton below q ih =>
    rw [← List.cons_append, ← List.append_assoc] at clean ⊢
    rw [rowDepartures_append_singleton, List.append_eq_nil_iff, departures_eq_nil_iff] at clean
    obtain ⟨clean, sound, fresh⟩ := clean
    have length : (above ++ r :: below).length = (above ++ old :: below).length := by simp
    rw [rowDepartures_append_singleton, ih clean, length, sound.departures_eq, List.append_assoc]
    congr 1
    have lower : ∀ a ∈ below, a.name ≠ q.name := fun a ha => fresh a (by simp [ha])
    -- The names below differ, so no second row has the new name.
    by_cases same : q.name = r.name
    · rw [← same, clash_of_fresh lower, clash_of_mem (q := r) (by simp) same.symm,
        clash_of_mem (q := q) (by simp) rfl, List.nil_append]
    · have unseen : ∀ a ∈ above ++ r :: below, a.name ≠ q.name := by
        intro a ha
        rcases List.mem_append.mp ha with ha | ha
        · exact fresh a (by simp [ha])
        · rcases List.mem_cons.mp ha with ha | ha
          · exact ha ▸ Ne.symm same
          · exact lower a ha
      rw [clash_of_fresh unseen, clash_append_singleton_of_ne same, List.append_nil]

end

section

variable {t : Table} {p : Nat}

theorem Table.WellFormed.named_of_mem (h : t.WellFormed) : ∀ q ∈ t, q.name ≠ "" := by
  intro q hq
  obtain ⟨i, hi⟩ := List.mem_iff_getElem?.mp hq
  exact (h.sound i q hi).named

theorem Table.WellFormed.fresh_below (h : t.WellFormed) {name : String}
    (upper : ∃ q ∈ t.take p, q.name = name) : ∀ q ∈ t.drop (p + 1), q.name ≠ name := by
  intro q hq same
  obtain ⟨a, ha, taken⟩ := upper
  obtain ⟨i, hi, ha⟩ := mem_take_iff_getElem?.mp ha
  obtain ⟨j, hj, hq⟩ := mem_drop_iff_getElem?.mp hq
  exact (pairwise_iff_distinct.mp h.distinct) i j a q (by omega) ha hq (taken.trans same.symm)

theorem violations_set (clean : t.violations = []) (hp : p < 17) (r : Row) :
    Table.violations (t.set p r) =
      r.departures (t.take p) p ++ clash (t.drop (p + 1)) r.name := by
  have length := (violations_eq_nil_iff.mp clean).length_eq
  have inside : p < t.length := by omega
  have whole : t = t.take p ++ t[p] :: t.drop (p + 1) := by
    rw [← List.drop_eq_getElem_cons inside, List.take_append_drop]
  have replaced : t.set p r = t.take p ++ r :: t.drop (p + 1) := by
    rw [List.set_eq_take_append_cons_drop, if_pos inside]
  have rows : t.rowDepartures = [] := by
    rw [violations_eq_departures_append, List.append_eq_nil_iff] at clean
    exact clean.2
  have height : (t.take p).length = p := by
    rw [List.length_take]
    omega
  have full : Table.lengthDepartures (t.set p r) = [] := if_pos (by rw [List.length_set, length])
  rw [violations_eq_departures_append, full, List.nil_append, replaced,
    rowDepartures_replace (whole ▸ rows) r, height]

theorem count_duplicateName_departures {r : Row} {above : List Row}
    (named : ∀ q ∈ above, q.name ≠ "") :
    (r.departures above p).count (.duplicateName r.name) =
      if ∃ q ∈ above, q.name = r.name then 1 else 0 := by
  rw [nodup_departures.count]
  refine if_congr ?_ rfl rfl
  rw [mem_departures_iff, departs_duplicateName_iff]
  refine ⟨fun h => h.2.2, fun taken => ⟨?_, rfl, taken⟩⟩
  obtain ⟨q, hq, same⟩ := taken
  exact same ▸ named q hq

theorem count_clash {rows : List Row} {name : String} :
    (clash rows name).count (.duplicateName name) =
      if ∃ q ∈ rows, q.name = name then 1 else 0 := by
  unfold clash
  split
  next => exact List.count_singleton_self
  next => rfl

end

/-- If one row of a table without violations is replaced, what is wrong with the new row is reported
at its place, and nothing else but its name, once, if another row has it: in the place of the new
row if that row is above, at the end if it is below. -/
theorem replaced_row_reported {t : Table} (clean : t.violations = []) {p : Nat} (hp : p < 17)
    (r : Row) :
    Table.violations (t.set p r) =
      (if r.situation.ordinal = p then [] else [.outOfPosition r.name p r.situation.ordinal]) ++
      (if r.name = "" then [.emptyName p] else []) ++ clash (t.take p) r.name ++
      (if r.set = ∅ then [.emptySet r.name] else []) ++
      (if .endOfFile ∈ r.set then [.nonResuming r.name .endOfFile] else []) ++
      (if .error ∈ r.set then [.nonResuming r.name .error] else []) ++
      clash (t.drop (p + 1)) r.name ∧
    (Table.violations (t.set p r)).count (.duplicateName r.name) =
      if ∃ q ∈ t.eraseIdx p, q.name = r.name then 1 else 0 := by
  have wf := violations_eq_nil_iff.mp clean
  have named : ∀ q ∈ t.take p, q.name ≠ "" := fun q hq =>
    wf.named_of_mem q (List.mem_of_mem_take hq)
  rw [violations_set clean hp r]
  refine ⟨by rw [departures_eq_append named], ?_⟩
  rw [List.count_append, count_duplicateName_departures named, count_clash,
    List.eraseIdx_eq_take_drop_succ]
  simp only [List.mem_append, or_and_right, exists_or]
  by_cases upper : ∃ q ∈ t.take p, q.name = r.name
  · have lower : ¬∃ q ∈ t.drop (p + 1), q.name = r.name := by
      intro taken
      obtain ⟨q, hq, same⟩ := taken
      exact wf.fresh_below upper q hq same
    rw [if_pos upper, if_neg lower, if_pos (Or.inl upper)]
  · rw [if_neg upper, Nat.zero_add]
    simp only [upper, false_or]

theorem names_clash_below_and_above :
    syncTable.violations = [] ∧ 3 < 17 ∧ 16 < 17 ∧
    Table.violations (syncTable.set 3 ⟨.forLoopBody, "else-or-end", .ofList [.error, .endOfFile]⟩) =
      [.outOfPosition "else-or-end" 3 16, .nonResuming "else-or-end" .endOfFile,
        .nonResuming "else-or-end" .error, .duplicateName "else-or-end"] ∧
    Table.violations (syncTable.set 16 ⟨.elseOrEnd, "else-or-end", ∅⟩) =
      [.outOfPosition "else-or-end" 16 8, .duplicateName "else-or-end",
        .emptySet "else-or-end"] := by
  have upper : 3 < 17 := by decide
  have lower : 16 < 17 := by decide
  refine ⟨violations_syncTable, upper, lower,
    (replaced_row_reported violations_syncTable upper _).1.trans ?_,
    (replaced_row_reported violations_syncTable lower _).1.trans ?_⟩
  · decide +kernel
  · decide +kernel

end PanicMode
