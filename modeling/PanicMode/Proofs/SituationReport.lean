import PanicMode.Proofs.DecimalNumerals
import PanicMode.Proofs.ReportLines

namespace PanicMode

section

variable {text : String} {v : Int}

theorem resolve_of_isNumeral (h : IsNumeral text.toList v) (fits : -2 ^ 63 ≤ v ∧ v < 2 ^ 63) :
    Situation.resolve text = (Situation.ofOrdinal v).mapError .invalidOrdinal := by
  rw [Situation.resolve, readInt64?_eq_some_iff.mpr ⟨h, fits⟩]

theorem exists_ordinal_of_inside (inside : 0 ≤ v ∧ v ≤ 16) : ∃ d : Situation, v = d.ordinal := by
  refine (Situation.ordinal_or_outside v).resolve_right fun outside => outside ?_
  change 0 ≤ v ∧ v < 17
  omega

/-- A numeral for an ordinal is always short enough to be read as one. -/
theorem situation_of_ordinal {d : Situation} (h : IsNumeral text.toList d.ordinal) :
    Report.situation text = .ok ⟨d.row.line, true⟩ := by
  obtain ⟨low, high⟩ := d.ordinal_inside
  have small : (Situation.count : Int) = 17 := rfl
  rw [Report.situation, resolve_of_isNumeral h (by omega), d.ofOrdinal_ordinal]
  rfl

theorem situation_of_beyond (h : IsNumeral text.toList v) (fits : -2 ^ 63 ≤ v ∧ v < 2 ^ 63)
    (beyond : ¬(0 ≤ v ∧ v ≤ 16)) : Report.situation text = .error (.invalidOrdinal ⟨v⟩) := by
  have outside : ¬(0 ≤ v ∧ v < Situation.count) := by
    change ¬(0 ≤ v ∧ v < 17)
    omega
  rw [Report.situation, resolve_of_isNumeral h fits, Situation.ofOrdinal_outside outside]
  rfl

theorem situation_ok_iff_of_isNumeral (h : IsNumeral text.toList v)
    (fits : -2 ^ 63 ≤ v ∧ v < 2 ^ 63) :
    (∃ r, Report.situation text = .ok r) ↔ 0 ≤ v ∧ v ≤ 16 := by
  refine ⟨fun answered => ?_, fun inside => ?_⟩
  · obtain ⟨r, hr⟩ := answered
    by_contra beyond
    rw [situation_of_beyond h fits beyond] at hr
    cases hr
  · obtain ⟨d, hd⟩ := exists_ordinal_of_inside inside
    subst hd
    exact ⟨_, situation_of_ordinal h⟩

theorem readInt64?_eq_none
    (h : ∀ v, IsNumeral text.toList v → ¬(-2 ^ 63 ≤ v ∧ v < 2 ^ 63)) :
    readInt64? text = none := by
  cases hr : readInt64? text with
  | none => rfl
  | some v =>
    obtain ⟨numeral, fits⟩ := readInt64?_eq_some_iff.mp hr
    exact absurd fits (h v numeral)

theorem not_isNumeral_name (d : Situation) (v : Int) : ¬IsNumeral d.name.toList v := by
  intro h
  have unread : numeralValue? d.name.toList = none := by
    cases d <;> rfl
  rw [numeralValue?_eq_some_iff.mpr h] at unread
  cases unread

theorem situation_of_name (d : Situation) :
    Report.situation d.name = .ok ⟨d.row.line, true⟩ := by
  have unread := readInt64?_eq_none fun v h => absurd h (not_isNumeral_name d v)
  simp only [Report.situation, Situation.resolve, unread, Situation.named?_eq_some_iff.mpr rfl]
  rfl

theorem situation_of_unknown (h : ∀ v, IsNumeral text.toList v → ¬(-2 ^ 63 ≤ v ∧ v < 2 ^ 63))
    (unknown : ∀ d : Situation, text ≠ d.name) :
    Report.situation text = .error (.unknownSituation text) := by
  have unnamed : Situation.named? text = none := by
    cases hn : Situation.named? text with
    | none => rfl
    | some d => exact absurd (Situation.named?_eq_some_iff.mp hn) (unknown d)
  simp only [Report.situation, Situation.resolve, readInt64?_eq_none h, unnamed]
  rfl

theorem situation_ok_iff_of_unread
    (h : ∀ v, IsNumeral text.toList v → ¬(-2 ^ 63 ≤ v ∧ v < 2 ^ 63)) :
    (∃ r, Report.situation text = .ok r) ↔ ∃ d : Situation, text = d.name := by
  refine ⟨fun answered => ?_, fun named => ?_⟩
  · obtain ⟨r, hr⟩ := answered
    by_contra unknown
    rw [situation_of_unknown h (not_exists.mp unknown)] at hr
    cases hr
  · obtain ⟨d, same⟩ := named
    exact ⟨_, same ▸ situation_of_name d⟩

end

theorem message_invalidOrdinal (v : Int) :
    (QueryError.invalidOrdinal ⟨v⟩).message =
      "invalid resync set id " ++ toString v ++ ": expected an ordinal in 0..17" := by
  have range : ": expected an ordinal in 0.." ++ toString Situation.count =
      ": expected an ordinal in 0..17" := by decide +kernel
  rw [← range, ← String.append_assoc]
  rfl

/-- A text that is read as a number asks for the ordinal, whatever its spelling. Any other text
asks for the name, and no name is a numeral. -/
theorem situation_report_decided (text : String) :
    (∀ v, IsNumeral text.toList v → -2 ^ 63 ≤ v ∧ v < 2 ^ 63 →
      ((∃ r, Report.situation text = .ok r) ↔ 0 ≤ v ∧ v ≤ 16) ∧
      (0 ≤ v ∧ v ≤ 16 → ∃ l, (lines Report.table.output)[v.toNat]? = some l ∧
        Report.situation text = .ok ⟨l, true⟩) ∧
      (¬(0 ≤ v ∧ v ≤ 16) → Report.situation text = .error (.invalidOrdinal ⟨v⟩) ∧
        ∃ digits, IsCanonical digits v ∧ (QueryError.invalidOrdinal ⟨v⟩).message =
          "invalid resync set id " ++ String.ofList digits ++ ": expected an ordinal in 0..17") ∧
      ∀ other, IsNumeral other.toList v → Report.situation other = Report.situation text) ∧
    ((∀ v, IsNumeral text.toList v → ¬(-2 ^ 63 ≤ v ∧ v < 2 ^ 63)) →
      ((∃ r, Report.situation text = .ok r) ↔ ∃ d : Situation, text.toUTF8 = d.name.toUTF8) ∧
      (∀ d : Situation, text.toUTF8 = d.name.toUTF8 → ∀ numeral : String,
        IsNumeral numeral.toList d.ordinal →
          Report.situation text = Report.situation numeral) ∧
      ((∀ d : Situation, text.toUTF8 ≠ d.name.toUTF8) →
        Report.situation text = .error (.unknownSituation text))) ∧
    ∀ v (d : Situation), IsNumeral text.toList v → text ≠ d.name := by
  refine ⟨fun v numeral fits => ?_, fun unread => ?_, fun v d numeral same => ?_⟩
  · refine ⟨situation_ok_iff_of_isNumeral numeral fits, fun inside => ?_, fun beyond => ?_,
      fun other h => ?_⟩
    · obtain ⟨d, hd⟩ := exists_ordinal_of_inside inside
      subst hd
      exact ⟨_, getElem?_lines_table d, situation_of_ordinal numeral⟩
    · refine ⟨situation_of_beyond numeral fits beyond, _, isCanonical_toString v, ?_⟩
      rw [String.ofList_toList, message_invalidOrdinal]
    · rw [Report.situation, Report.situation, resolve_of_isNumeral h fits,
        resolve_of_isNumeral numeral fits]
  · simp only [ne_eq, toUTF8_inj]
    refine ⟨situation_ok_iff_of_unread unread, fun d same numeral h => ?_,
      situation_of_unknown unread⟩
    rw [same, situation_of_name, situation_of_ordinal h]
  · subst same
    exact not_isNumeral_name d v numeral

theorem long_spelling_overflow_and_name_reported :
    IsNumeral "+007".toList 7 ∧ (∃ l, (lines Report.table.output)[7]? = some l ∧
      Report.situation "+007" = .ok ⟨l, true⟩) ∧
    IsNumeral "9223372036854775808".toList (2 ^ 63) ∧
    Report.situation "9223372036854775808" = .error (.unknownSituation "9223372036854775808") ∧
    Report.situation "semicolon-or-end" = Report.situation "+007" := by
  have seven : IsNumeral "+007".toList 7 := numeralValue?_eq_some_iff.mp (by decide)
  have large : IsNumeral "9223372036854775808".toList (2 ^ 63) :=
    numeralValue?_eq_some_iff.mp (by decide)
  have unread : ∀ v, IsNumeral "9223372036854775808".toList v →
      ¬(-2 ^ 63 ≤ v ∧ v < 2 ^ 63) := by
    intro v h fits
    have same := (numeralValue?_eq_some_iff.mpr large).symm.trans (numeralValue?_eq_some_iff.mpr h)
    cases Option.some.inj same
    exact absurd fits.2 (by decide)
  have worded : ∀ v, ¬IsNumeral "semicolon-or-end".toList v :=
    not_isNumeral_name .semicolonOrEnd
  obtain ⟨_, found, _⟩ := (situation_report_decided "+007").1 7 seven (by decide)
  obtain ⟨_, _, unknown⟩ := (situation_report_decided "9223372036854775808").2.1 unread
  obtain ⟨_, named, _⟩ := (situation_report_decided "semicolon-or-end").2.1
    fun v h => absurd h (worded v)
  refine ⟨seven, found (by decide), large, unknown fun d => ?_,
    named .semicolonOrEnd rfl "+007" seven⟩
  intro same
  have hd := not_isNumeral_name d (2 ^ 63)
  rw [← toUTF8_inj.mp same] at hd
  exact hd large

end PanicMode
