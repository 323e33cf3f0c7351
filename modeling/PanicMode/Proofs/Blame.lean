import PanicMode.Proofs.Verdicts
import PanicMode.SyncTable

namespace PanicMode

/-- The violation is the fault, told with the data of the table and of the refused row. -/
inductive Fault.Blames (t : Table) : Fault → Violation → Prop where
  | wrongLength : Blames t .wrongLength (.wrongLength 17 t.length)
  | outOfPosition {i : Nat} {r : Row} (hr : t[i]? = some r) :
      Blames t (.row i .outOfPosition) (.outOfPosition r.name i r.situation.ordinal)
  | emptyName {i : Nat} {r : Row} (hr : t[i]? = some r) :
      Blames t (.row i .emptyName) (.emptyName i)
  | emptySet {i : Nat} {r : Row} (hr : t[i]? = some r) :
      Blames t (.row i .emptySet) (.emptySet r.name)
  | endOfFile {i : Nat} {r : Row} (hr : t[i]? = some r) (hk : .endOfFile ∈ r.set) :
      Blames t (.row i .nonResuming) (.nonResuming r.name .endOfFile)
  | error {i : Nat} {r : Row} (hr : t[i]? = some r) (before : .endOfFile ∉ r.set)
      (hk : .error ∈ r.set) :
      Blames t (.row i .nonResuming) (.nonResuming r.name .error)

theorem blames_head?_departures {t : Table} {i : Nat} {r : Row} {above later : List Row}
    {f : RowFault} (hr : t[i]? = some r) (breaks : r.Breaks i later f)
    (keeps : ∀ g ∈ f.earlier, ¬r.Breaks i later g) (hne : f ≠ .repeatedName)
    (distinct : ∀ q ∈ above, q.name ≠ r.name) :
    ∃ v, (r.departures above i).head? = some v ∧ Fault.Blames t (.row i f) v := by
  have unrepeated : ¬∃ q ∈ above, q.name = r.name := by
    intro hq
    obtain ⟨q, hq, same⟩ := hq
    exact distinct q hq same
  cases f with
  | unlisted => exact absurd breaks id
  | repeatedName => exact absurd rfl hne
  | outOfPosition =>
    have moved : ¬r.situation.ordinal = i := breaks
    exact ⟨_, by simp [Row.departures, moved], .outOfPosition hr⟩
  | emptyName =>
    have position : r.situation.ordinal = i :=
      not_not.mp (keeps .outOfPosition (by simp [RowFault.earlier]))
    have empty : r.name = "" := breaks
    exact ⟨_, by simp [Row.departures, position, empty], .emptyName hr⟩
  | emptySet =>
    have position : r.situation.ordinal = i :=
      not_not.mp (keeps .outOfPosition (by simp [RowFault.earlier]))
    have named : ¬r.name = "" := keeps .emptyName (by simp [RowFault.earlier])
    have empty : r.set = ∅ := breaks
    exact ⟨_, by simp [Row.departures, position, named, unrepeated, empty], .emptySet hr⟩
  | nonResuming =>
    have position : r.situation.ordinal = i :=
      not_not.mp (keeps .outOfPosition (by simp [RowFault.earlier]))
    have named : ¬r.name = "" := keeps .emptyName (by simp [RowFault.earlier])
    have inhabited : ¬r.set = ∅ := keeps .emptySet (by simp [RowFault.earlier])
    by_cases heof : .endOfFile ∈ r.set
    · exact ⟨_, by simp [Row.departures, position, named, unrepeated, inhabited, heof],
        .endOfFile hr heof⟩
    · have herr : .error ∈ r.set := Or.resolve_left breaks heof
      exact ⟨_, by simp [Row.departures, position, named, unrepeated, inhabited, heof, herr],
        .error hr heof herr⟩

section

variable {t : Table} {i : Nat} (hlen : t.length = Situation.count)
  (clean : ∀ p, p < i → t.faultAt? p = none)

include hlen clean

theorem names_above_distinct {j : Nat} {r : Row} (hj : j ≤ i) (hr : t[j]? = some r) :
    ∀ q ∈ t.take j, q.name ≠ r.name := by
  intro q hq same
  obtain ⟨p, hp, hq⟩ := mem_take_iff_getElem?.mp hq
  obtain ⟨_, distinct⟩ := sound_of_faultAt?_none hlen hq (clean p (by omega))
  exact distinct r (mem_drop_iff_getElem?.mpr ⟨j, hp, hr⟩) same.symm

theorem reportedAt_eq_nil_of_clean {p : Nat} (hp : p < i) : t.reportedAt p = [] := by
  cases hr : t[p]? with
  | none => simp [Table.reportedAt, hr]
  | some r =>
    obtain ⟨sound, _⟩ := sound_of_faultAt?_none hlen hr (clean p hp)
    exact (reportedAt_eq_nil_iff hr).mpr
      ⟨sound, names_above_distinct hlen clean (Nat.le_of_lt hp) hr⟩

theorem violations_eq_from (hi : i < t.length) :
    t.violations =
      t.reportedAt i ++ (List.range' (i + 1) (t.length - (i + 1))).flatMap t.reportedAt := by
  have length : t.lengthDepartures = [] := if_pos hlen
  have cut : List.range t.length =
      List.range i ++ i :: List.range' (i + 1) (t.length - (i + 1)) := by
    have hjoin := List.range'_append_1 (s := 0) (m := i) (n := t.length - i)
    rw [Nat.zero_add, Nat.add_sub_of_le (Nat.le_of_lt hi), ← List.range_eq_range',
      ← List.range_eq_range'] at hjoin
    rw [← hjoin, show t.length - i = (t.length - (i + 1)) + 1 by omega, List.range'_succ]
  have above : (List.range i).flatMap t.reportedAt = [] :=
    List.flatMap_eq_nil_iff.mpr fun p hp =>
      reportedAt_eq_nil_of_clean hlen clean (List.mem_range.mp hp)
  rw [violations_eq_flatMap, length, cut, List.flatMap_append, above, List.flatMap_cons]
  rfl

end

theorem violations_head?_of_wrongLength {t : Table} (h : t.validate = .error .wrongLength) :
    t.violations.head? = some (.wrongLength 17 t.length) := by
  have length : t.lengthDepartures = [.wrongLength 17 t.length] :=
    if_neg (length_of_validate_wrongLength h)
  rw [violations_eq_flatMap, length]
  rfl

theorem violations_head?_of_row {t : Table} {i : Nat} {f : RowFault}
    (h : t.validate = .error (.row i f)) (hne : f ≠ .repeatedName) :
    ∃ v, t.violations.head? = some v ∧ Fault.Blames t (.row i f) v := by
  obtain ⟨hlen, first, clean⟩ := faultAt?_of_validate_row h
  obtain ⟨r, hr, breaks, keeps⟩ := breaks_of_faultAt?_some hlen first
  obtain ⟨hi, _⟩ := List.getElem?_eq_some_iff.mp hr
  obtain ⟨v, hv, blames⟩ := blames_head?_departures hr breaks keeps hne
    (names_above_distinct hlen clean (Nat.le_refl i) hr)
  refine ⟨v, ?_, blames⟩
  rw [violations_eq_from hlen clean hi, reportedAt_eq_departures hr, List.head?_append, hv]
  rfl

theorem exists_violations_head? {t : Table} {f : Fault} (h : t.validate = .error f)
    (hne : ∀ i, f ≠ .row i .repeatedName) :
    ∃ v, t.violations.head? = some v ∧ f.Blames t v := by
  cases f with
  | wrongLength => exact ⟨_, violations_head?_of_wrongLength h, .wrongLength⟩
  | row i f => exact violations_head?_of_row h fun same => hne i (same ▸ rfl)

/-- A name is blamed on its upper row by the one pass and on its lower rows by the other. -/
theorem duplicateName_mem_reportedAt {t : Table} {i j : Nat} {r q : Row} (hij : i < j)
    (hr : t[i]? = some r) (hq : t[j]? = some q) (named : r.name ≠ "") (same : q.name = r.name) :
    .duplicateName r.name ∈ t.reportedAt j := by
  have seen : ∃ a ∈ t.take j, a.name = q.name :=
    ⟨r, mem_take_iff_getElem?.mpr ⟨i, hij, hr⟩, same.symm⟩
  rw [reportedAt_eq_departures hq, ← same, mem_departures_iff]
  exact .duplicateName (same ▸ named) seen

theorem violations_of_repeatedName {t : Table} {i : Nat}
    (h : t.validate = .error (.row i .repeatedName)) :
    (∃ r, t[i]? = some r ∧ .duplicateName r.name ∈ t.violations) ∧
      (∀ p ≤ i, t.reportedAt p = []) ∧
      t.violations = (List.range' (i + 1) (t.length - (i + 1))).flatMap t.reportedAt := by
  obtain ⟨hlen, first, clean⟩ := faultAt?_of_validate_row h
  obtain ⟨r, hr, breaks, keeps⟩ := breaks_of_faultAt?_some hlen first
  obtain ⟨hi, _⟩ := List.getElem?_eq_some_iff.mp hr
  have sound := (Row.sound_iff _).mpr keeps
  have silent : t.reportedAt i = [] := (reportedAt_eq_nil_iff hr).mpr
    ⟨sound, names_above_distinct hlen clean (Nat.le_refl i) hr⟩
  have below := violations_eq_from hlen clean hi
  rw [silent, List.nil_append] at below
  refine ⟨⟨r, hr, ?_⟩, fun p hp => ?_, below⟩
  · obtain ⟨q, hq, same⟩ := breaks
    obtain ⟨j, hj, hq⟩ := mem_drop_iff_getElem?.mp hq
    obtain ⟨hjlen, _⟩ := List.getElem?_eq_some_iff.mp hq
    rw [below, List.mem_flatMap]
    exact ⟨j, List.mem_range'_1.mpr (by omega),
      duplicateName_mem_reportedAt hj hr hq sound.named same⟩
  · rcases Nat.lt_or_eq_of_le hp with hlt | heq
    · exact reportedAt_eq_nil_of_clean hlen clean hlt
    · rw [heq, silent]

theorem refused_of_violations_ne_nil {t : Table} (h : t.violations ≠ []) :
    ∃ f, t.validate = .error f := by
  cases hv : t.validate with
  | ok => exact absurd (violations_eq_nil_iff.mpr (wellFormed_of_validate hv)) h
  | error f => exact ⟨f, rfl⟩

theorem not_blames_duplicateName {t : Table} {f : Fault} {name : String} :
    ¬f.Blames t (.duplicateName name) := by
  intro h
  cases h

/-- Both validators put the blame on one row, except for a repeated name. There the validator that
stops refuses the upper row, and the one that goes on has nothing to say down to that row. -/
theorem validators_blame_alike (t : Table) :
    (∀ f, t.validate = .error f → (∀ i, f ≠ .row i .repeatedName) →
      ∃ v, t.violations.head? = some v ∧ f.Blames t v) ∧
    (∀ i, t.validate = .error (.row i .repeatedName) →
      (∃ r, t[i]? = some r ∧ .duplicateName r.name ∈ t.violations) ∧
      (∀ p ≤ i, t.reportedAt p = []) ∧
      t.violations = (List.range' (i + 1) (t.length - (i + 1))).flatMap t.reportedAt) ∧
    (∀ name rest, t.violations = .duplicateName name :: rest →
      ∃ i, t.validate = .error (.row i .repeatedName)) := by
  refine ⟨fun f h hne => exists_violations_head? h hne, fun i h => violations_of_repeatedName h,
    fun name rest h => ?_⟩
  obtain ⟨f, hf⟩ := refused_of_violations_ne_nil (t := t) (by simp [h])
  by_cases repeated : ∃ i, f = .row i .repeatedName
  · obtain ⟨i, hi⟩ := repeated
    exact ⟨i, hi ▸ hf⟩
  · obtain ⟨v, hv, blames⟩ := exists_violations_head? hf fun i hi => repeated ⟨i, hi⟩
    rw [h, List.head?_cons] at hv
    cases hv
    exact absurd blames not_blames_duplicateName

def renamedTable (name : String) : Table :=
  syncTable.map fun r => { r with name }

theorem renamed_tables_blamed_alike :
    (renamedTable "").validate = .error (.row 0 .emptyName) ∧
    (renamedTable "").violations.head? = some (.emptyName 0) ∧
    (renamedTable "statement").validate = .error (.row 0 .repeatedName) ∧
    (renamedTable "statement").reportedAt 0 = [] ∧
    ∃ rest, (renamedTable "statement").violations = .duplicateName "statement" :: rest ∧
      ∃ i, (renamedTable "statement").validate = .error (.row i .repeatedName) := by
  have unnamed : (renamedTable "").validate = .error (.row 0 .emptyName) := rfl
  have repeated : (renamedTable "statement").validate = .error (.row 0 .repeatedName) := rfl
  obtain ⟨v, hv, blames⟩ := (validators_blame_alike (renamedTable "")).1 _ unnamed (by simp)
  obtain ⟨_, hp, htail⟩ := (validators_blame_alike (renamedTable "statement")).2.1 0 repeated
  have second : (renamedTable "statement").reportedAt 1 = [.duplicateName "statement"] :=
    (reportedAt_eq_departures rfl).trans (by decide)
  have first : (renamedTable "statement").violations = .duplicateName "statement" ::
      (List.range' 2 15).flatMap (renamedTable "statement").reportedAt := by
    rw [htail]
    change List.flatMap _ (List.range' 1 (15 + 1)) = _
    rw [List.range'_succ, List.flatMap_cons, second]
    rfl
  refine ⟨unnamed, ?_, repeated, hp 0 (Nat.le_refl 0), _, first, ?_⟩
  · cases blames
    exact hv
  · exact (validators_blame_alike (renamedTable "statement")).2.2 _ _ first

end PanicMode
