import PanicMode.Proofs.Separators
import PanicMode.Proofs.TerminalReport

namespace PanicMode

theorem Row.line_eq_columns (r : Row) :
    r.line = alignRight 2 (toString r.situation.ordinal) ++
      ("  " ++ (alignLeft 34 r.name ++ " " ++ (r.set.render ++ "\n"))) := by
  simp only [Row.line_eq, Row.front, String.append_assoc]

/-- The column of ordinals is equally wide in all lines. -/
theorem columns_of_line {r q : Row} (h : r.line = q.line) :
    r.situation = q.situation ∧ alignLeft 34 r.name ++ " " ++ (r.set.render ++ "\n") =
      alignLeft 34 q.name ++ " " ++ (q.set.render ++ "\n") := by
  rw [r.line_eq_columns, q.line_eq_columns] at h
  have widths := r.situation.length_ordinal_column.trans q.situation.length_ordinal_column.symm
  obtain ⟨columns, rests⟩ := cut_at_width widths h
  have ordinals := alignRight_toString_injective columns
  exact ⟨Situation.ordinal_injective ordinals, (String.append_right_inj "  ").mp rests⟩

/-- A name without blanks ends where the first blank stands, so a line belongs to one row. -/
theorem line_determines_row {r q : Row} (whole : ' ' ∉ r.name.toList) (whole' : ' ' ∉ q.name.toList)
    (built : r.set.Built) (built' : q.set.Built) (same : r.line = q.line) :
    r.situation = q.situation ∧ r.name = q.name ∧ r.set = q.set := by
  obtain ⟨situations, rests⟩ := columns_of_line same
  obtain ⟨names, texts⟩ := alignLeft_append_injective whole whole' rests
  have sets := (String.append_left_inj "\n").mp texts
  exact ⟨situations, names, (built.render_inj built').mp sets⟩

/-- A row whose name is wider than its column and made of what stands around the members of sets.
The braces in it are written by their code points. -/
def bracedRow (ks : List Terminal) : Row :=
  ⟨.commaOrSemicolon, "\x7b,\n\x7d-name-that-is-wider-than-its-column", .ofList ks⟩

theorem bracedRow_determined :
    ' ' ∉ (bracedRow [.comma, .rightBrace]).name.toList ∧
    ' ' ∉ (bracedRow [.rightBrace, .comma, .comma]).name.toList ∧
    (bracedRow [.comma, .rightBrace]).set.Built ∧
    (bracedRow [.rightBrace, .comma, .comma]).set.Built ∧
    (bracedRow [.comma, .rightBrace]).line = (bracedRow [.rightBrace, .comma, .comma]).line ∧
    (bracedRow [.comma, .rightBrace]).situation =
      (bracedRow [.rightBrace, .comma, .comma]).situation ∧
    (bracedRow [.comma, .rightBrace]).name = (bracedRow [.rightBrace, .comma, .comma]).name ∧
    (bracedRow [.comma, .rightBrace]).set = (bracedRow [.rightBrace, .comma, .comma]).set := by
  have whole : ∀ ks, ' ' ∉ (bracedRow ks).name.toList := fun ks => by simp [bracedRow]
  have built : ∀ ks, (bracedRow ks).set.Built := fun ks => .ofList ks
  have same : (bracedRow [.comma, .rightBrace]).line =
      (bracedRow [.rightBrace, .comma, .comma]).line := by decide +kernel
  exact ⟨whole _, whole _, built _, built _, same,
    line_determines_row (whole _) (whole _) (built _) (built _) same⟩

end PanicMode
