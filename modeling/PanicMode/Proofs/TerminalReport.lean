import PanicMode.Proofs.DecimalNumerals
import PanicMode.Proofs.ReportLines

namespace PanicMode

namespace Situation

/-- The line with the ordinal at the right end of two columns, two blanks and the name. -/
def ListedAs (d : Situation) (l : String) : Prop :=
  ∃ blanks digits : List Char, IsCanonical digits d.ordinal ∧ (∀ c ∈ blanks, c = ' ') ∧
    blanks.length + digits.length = 2 ∧
    l = String.ofList (blanks ++ digits) ++ "  " ++ d.name ++ "\n"

theorem length_ordinal_digits (d : Situation) : (Nat.toDigits 10 d.ordinal).length ≤ 2 := by
  have bound := d.ordinal_lt_count
  change d.ordinal < 17 at bound
  exact (Nat.length_toDigits_le_iff (by decide) (by decide)).mpr (by omega)

theorem listedAs_line (d : Situation) : d.ListedAs d.line := by
  have short := d.length_ordinal_digits
  refine ⟨List.replicate (2 - (Nat.toDigits 10 d.ordinal).length) ' ', Nat.toDigits 10 d.ordinal,
    isCanonical_toDigits d.ordinal, fun c hc => List.eq_of_mem_replicate hc, ?_, ?_⟩
  · rw [List.length_replicate]
    omega
  · rw [← alignRight_toString]
    rfl

theorem length_ordinal_column (d : Situation) :
    (alignRight 2 (toString d.ordinal)).toList.length = 2 := by
  have short := d.length_ordinal_digits
  rw [alignRight_toString, String.toList_ofList, List.length_append, List.length_replicate]
  omega

/-- The columns are equally wide, so two equal lines have equal names. -/
theorem line_injective {d e : Situation} (h : d.line = e.line) : d = e := by
  have texts := congrArg String.toList h
  simp only [line, String.toList_append, List.append_assoc] at texts
  have tails := (List.append_inj texts (by rw [length_ordinal_column, length_ordinal_column])).2
  have names := List.append_cancel_right (List.append_cancel_left tails)
  exact name_injective (String.toList_inj.mp names)

end Situation

/-- The line of a report that names no situation. -/
def Terminal.noneLine (k : Terminal) : String :=
  "no recovery situation resumes at `" ++ k.spelling ++ "`\n"

theorem Terminal.isLine_noneLine (k : Terminal) : IsLine k.noneLine := by
  have body : IsLine ("no recovery situation resumes at `" ++ k.spelling ++ "`" ++ "\n") := by
    apply isLine_append_newline
    simp only [String.toList_append, List.mem_append, not_or]
    exact ⟨⟨by decide, k.newline_not_mem_spelling⟩, by decide⟩
  rwa [String.append_assoc] at body

theorem head?_toList_append {a b : String} {c : Char} (h : a.toList.head? = some c) :
    (a ++ b).toList.head? = some c := by
  rw [String.toList_append, List.head?_append, h, Option.some_or]

theorem Terminal.head?_noneLine (k : Terminal) : k.noneLine.toList.head? = some 'n' := by
  have opening : "no recovery situation resumes at `".toList.head? = some 'n' := by
    decide +kernel
  exact head?_toList_append (head?_toList_append opening)

theorem Situation.head?_line (d : Situation) :
    ∃ c, d.line.toList.head? = some c ∧ (c = ' ' ∨ c.isDigit = true) := by
  have column : (alignRight 2 (toString d.ordinal)).toList ≠ [] := by
    rw [alignRight_toString, String.toList_ofList]
    simp
  have first := List.head?_eq_some_head column
  exact ⟨_, head?_toList_append (head?_toList_append (head?_toList_append first)),
    blank_or_digit_of_mem_alignRight (List.head_mem column)⟩

/-- The one line begins with a letter, the other with a column of numbers. -/
theorem Situation.line_ne_noneLine (d : Situation) (k : Terminal) : d.line ≠ k.noneLine := by
  intro same
  obtain ⟨c, hc, blank | digit⟩ := d.head?_line
  all_goals
    rw [same, k.head?_noneLine] at hc
    cases Option.some.inj hc
  · exact absurd blank (by decide)
  · exact absurd digit (by decide)

theorem resumingLines_of_none {k : Terminal} (h : ∀ d : Situation, k ∉ d.set) :
    Report.resumingLines k = [k.noneLine] := by
  have none : Situation.resumingAt k = [] :=
    List.eq_nil_iff_forall_not_mem.mpr fun d hd => h d (Situation.mem_resumingAt_iff.mp hd)
  rw [Report.resumingLines, none]
  rfl

theorem resumingLines_of_some {k : Terminal} {d : Situation} (h : k ∈ d.set) :
    Report.resumingLines k = (Situation.resumingAt k).map Situation.line := by
  have hd := Situation.mem_resumingAt_iff.mpr h
  unfold Report.resumingLines
  split
  next none =>
    rw [none] at hd
    cases hd
  next => rfl

/-- A report for a terminal has no other lines than these. -/
theorem isLine_of_mem_resumingLines {k : Terminal} : ∀ l ∈ Report.resumingLines k, IsLine l := by
  intro l hl
  by_cases resumes : ∃ d : Situation, k ∈ d.set
  · obtain ⟨d, hd⟩ := resumes
    rw [resumingLines_of_some hd] at hl
    obtain ⟨e, _, same⟩ := List.mem_map.mp hl
    exact same ▸ e.isLine_line
  · rw [resumingLines_of_none (not_exists.mp resumes), List.mem_singleton] at hl
    exact hl ▸ k.isLine_noneLine

theorem lines_resuming (k : Terminal) :
    lines (String.join (Report.resumingLines k)) = Report.resumingLines k :=
  lines_join isLine_of_mem_resumingLines

theorem resuming_of_ofSpelling? {text : String} {k : Terminal}
    (h : Terminal.ofSpelling? text = some k) :
    Report.resuming text = .ok ⟨String.join (Report.resumingLines k), true⟩ := by
  rw [Report.resuming, h]

theorem resuming_error_iff {text : String} {e : QueryError} :
    Report.resuming text = .error e ↔
      Terminal.ofSpelling? text = none ∧ e = .unknownToken text := by
  unfold Report.resuming
  cases Terminal.ofSpelling? text with
  | none => simp [eq_comm]
  | some k => simp

theorem mem_resumingLines_iff {k : Terminal} {d : Situation} :
    d.line ∈ Report.resumingLines k ↔ k ∈ d.set := by
  refine ⟨fun h => ?_, fun h => ?_⟩
  · by_cases resumes : ∃ e : Situation, k ∈ e.set
    · obtain ⟨e, he⟩ := resumes
      rw [resumingLines_of_some he] at h
      obtain ⟨e, he, same⟩ := List.mem_map.mp h
      exact Situation.mem_resumingAt_iff.mp (Situation.line_injective same ▸ he)
    · rw [resumingLines_of_none (not_exists.mp resumes), List.mem_singleton] at h
      exact absurd h (d.line_ne_noneLine k)
  · rw [resumingLines_of_some h]
    exact List.mem_map_of_mem (Situation.mem_resumingAt_iff.mpr h)

theorem join_resumingLines_eq_noneLine_iff {k : Terminal} :
    String.join (Report.resumingLines k) = k.noneLine ↔ ∀ d : Situation, k ∉ d.set := by
  refine ⟨fun h d hd => ?_, fun h => ?_⟩
  · have single := lines_resuming k
    rw [h, lines_of_isLine k.isLine_noneLine] at single
    have line := mem_resumingLines_iff.mpr hd
    rw [← single, List.mem_singleton] at line
    exact d.line_ne_noneLine k line
  · rw [resumingLines_of_none h, String.join_cons, String.join_nil, String.append_empty]

/-- A text that writes a terminal gets the lines of the situations that resume at it, and its own
letters do not matter. Any other text comes back in the error. -/
theorem terminal_report_decided (text : String) :
    ((∃ e, Report.resuming text = .error e) ↔ Terminal.ofSpelling? text = none) ∧
    (∀ e, Report.resuming text = .error e → e = .unknownToken text) ∧
    ∀ k, Terminal.ofSpelling? text = some k →
      (∃ output ds, Report.resuming text = .ok ⟨output, true⟩ ∧
        ds.Pairwise (fun d e => d.ordinal < e.ordinal) ∧
        (∀ d : Situation, d ∈ ds ↔ k ∈ d.set) ∧
        (ds ≠ [] → List.Forall₂ Situation.ListedAs ds (lines output)) ∧
        (output = "no recovery situation resumes at `" ++ k.spelling ++ "`\n" ↔ ds = [])) ∧
      (∀ other, Terminal.ofSpelling? other = some k →
        Report.resuming other = Report.resuming text) ∧
      (k.isReserved = true → ∀ other, sameUpToCase text other = true →
        Report.resuming other = Report.resuming text) := by
  refine ⟨⟨fun h => ?_, fun h => ⟨_, resuming_error_iff.mpr ⟨h, rfl⟩⟩⟩,
    fun e h => (resuming_error_iff.mp h).2, fun k hk => ?_⟩
  · obtain ⟨e, he⟩ := h
    exact (resuming_error_iff.mp he).1
  · have report := resuming_of_ofSpelling? hk
    refine ⟨⟨_, Situation.resumingAt k, report, syncTable_wellFormed.resumingAt_pairwise k,
      fun d => Situation.mem_resumingAt_iff, fun some => ?_, ?_⟩, fun other ho => ?_,
      fun reserved other same => ?_⟩
    · obtain ⟨d, hd⟩ := List.exists_mem_of_ne_nil _ some
      rw [lines_resuming, resumingLines_of_some (Situation.mem_resumingAt_iff.mp hd),
        List.forall₂_map_right_iff, List.forall₂_same]
      exact fun d _ => d.listedAs_line
    · refine join_resumingLines_eq_noneLine_iff.trans ?_
      simp only [← Situation.mem_resumingAt_iff, List.eq_nil_iff_forall_not_mem]
    · rw [report, resuming_of_ofSpelling? ho]
    · rw [report, resuming_of_ofSpelling? (Terminal.ofSpelling?_of_sameUpToCase hk reserved same)]

theorem end_and_plus_reported :
    Terminal.ofSpelling? "eNd" = some .END ∧ Report.resuming "END" = Report.resuming "eNd" ∧
    (∃ output ds, Report.resuming "eNd" = .ok ⟨output, true⟩ ∧ .forLoopBody ∈ ds ∧
      List.Forall₂ Situation.ListedAs ds (lines output)) ∧
    Terminal.ofSpelling? "+" = some .plus ∧
    Report.resuming "+" = .ok ⟨"no recovery situation resumes at `+`\n", true⟩ ∧
    ∃ e, Report.resuming "Identifier" = .error e ∧ e = .unknownToken "Identifier" := by
  have hend : Terminal.ofSpelling? "eNd" = some .END := by decide +kernel
  have hplus : Terminal.ofSpelling? "+" = some .plus := by decide +kernel
  have resumed : .END ∈ Situation.forLoopBody.set := by decide
  have skipped : ∀ d : Situation, .plus ∉ d.set := by
    intro d
    cases d <;> decide
  obtain ⟨⟨output, ds, report, _, members, listed, _⟩, _, cased⟩ :=
    (terminal_report_decided "eNd").2.2 .END hend
  obtain ⟨⟨_, es, plus, _, none, _, single⟩, _⟩ := (terminal_report_decided "+").2.2 .plus hplus
  obtain ⟨refused, carried, _⟩ := terminal_report_decided "Identifier"
  obtain ⟨e, he⟩ := refused.mpr (by decide +kernel)
  have hd := (members .forLoopBody).mpr resumed
  have empty : es = [] := List.eq_nil_iff_forall_not_mem.mpr fun d h => skipped d ((none d).mp h)
  refine ⟨hend, cased rfl "END" (by decide), ⟨output, ds, report, hd, ?_⟩, hplus, ?_,
    e, he, carried e he⟩
  · exact listed (List.ne_nil_of_mem hd)
  · rw [plus, single.mpr empty]
    rfl

end PanicMode
