import PanicMode.Proofs.EditedSet
import PanicMode.Proofs.MemberWalk
import PanicMode.Proofs.TerminalReport

namespace PanicMode

/-- The text of a line from its first brace on, without the newline. -/
def braceText (line : String) : List Char :=
  (line.toList.dropWhile (· != '{')).takeWhile (· != '\n')

theorem bne_of_mem {c : Char} {cs : List Char} (h : c ∉ cs) : ∀ b ∈ cs, (b != c) = true := by
  intro b hb
  rw [bne_iff_ne]
  exact fun same => h (same ▸ hb)

/-- A line of the table has no brace before the text of the set. -/
theorem braceText_rowLine (d : Situation) : braceText d.row.line = d.set.render.toList := by
  have front : '{' ∉ d.row.front.toList := d.plain_front.not_mem (by decide)
  have opened : (d.set.render.toList ++ ['\n']).dropWhile (· != '{') =
      d.set.render.toList ++ ['\n'] := by
    rw [toList_render]
    rfl
  have text : d.row.line.toList = d.row.front.toList ++ (d.set.render.toList ++ ['\n']) := by
    rw [Row.line_eq, String.toList_append, String.toList_append, List.append_assoc]
    rfl
  rw [braceText, text, List.dropWhile_append_of_pos (bne_of_mem front), opened,
    List.takeWhile_append_of_pos (bne_of_mem (newline_not_mem_render d.set))]
  simp

theorem spelling_mem_pieces_iff {k : Terminal} {d : Situation} :
    k.spelling ∈ pieces (braceText d.row.line) ↔ k ∈ d.set := by
  rw [braceText_rowLine, pieces_render,
    List.mem_map_of_injective fun _ _ same => Terminal.spelling_injective same]
  exact d.built_set.mem_toList_iff

/-- The report for a terminal names a situation exactly when the report for the situation lists
the terminal. -/
theorem reports_agree {text other : String} {k : Terminal} {d : Situation} {r q : Report}
    (writes : Terminal.ofSpelling? text = some k) (asks : Situation.resolve other = .ok d)
    (hr : Report.resuming text = .ok r) (hq : Report.situation other = .ok q) :
    d.line ∈ lines r.output ↔ k.spelling ∈ pieces (braceText q.output) := by
  rw [resuming_of_ofSpelling? writes] at hr
  rw [Report.situation, asks] at hq
  have lists : r = ⟨String.join (Report.resumingLines k), true⟩ := (Except.ok.inj hr).symm
  have shows : q = ⟨d.row.line, true⟩ := (Except.ok.inj hq).symm
  rw [lists, shows, lines_resuming, mem_resumingLines_iff]
  exact spelling_mem_pieces_iff.symm

theorem comma_reported_alike :
    Terminal.ofSpelling? "," = some .comma ∧ Situation.resolve "+03" = .ok .commaOrSemicolon ∧
    ∃ r q, Report.resuming "," = .ok r ∧ Report.situation "+03" = .ok q ∧
      Situation.commaOrSemicolon.line ∈ lines r.output ∧
      Terminal.comma.spelling ∈ pieces (braceText q.output) := by
  have writes : Terminal.ofSpelling? "," = some .comma := by decide +kernel
  have asks : Situation.resolve "+03" = .ok .commaOrSemicolon := rfl
  have hr := resuming_of_ofSpelling? writes
  have hq : Report.situation "+03" = .ok ⟨Situation.commaOrSemicolon.row.line, true⟩ := by
    rw [Report.situation, asks]
    rfl
  have listed : Situation.commaOrSemicolon.line ∈
      lines (String.join (Report.resumingLines .comma)) := by
    rw [lines_resuming]
    exact mem_resumingLines_iff.mpr (by decide)
  exact ⟨writes, asks, _, _, hr, hq, listed, (reports_agree writes asks hr hq).mp listed⟩

end PanicMode
