import PanicMode.Proofs.Lines
import PanicMode.Proofs.RawLookup
import PanicMode.Proofs.SetText
import PanicMode.Report

namespace PanicMode

/-- What numbers, names and the blanks between them are made of. -/
def isPlain (c : Char) : Bool := c == ' ' || c == '-' || c.isDigit || c.isLower

def Plain (text : String) : Prop := text.toList.all isPlain = true

instance (text : String) : Decidable (Plain text) :=
  inferInstanceAs (Decidable (text.toList.all isPlain = true))

theorem plain_iff {text : String} : Plain text ↔ ∀ c ∈ text.toList, isPlain c = true :=
  List.all_eq_true

theorem Plain.append {a b : String} (ha : Plain a) (hb : Plain b) : Plain (a ++ b) := by
  unfold Plain at ha hb ⊢
  rw [String.toList_append, List.all_append, ha, hb, Bool.and_self]

theorem Plain.not_mem {text : String} {c : Char} (h : Plain text) (hc : isPlain c = false) :
    c ∉ text.toList := by
  intro hm
  rw [plain_iff.mp h c hm] at hc
  cases hc

theorem plain_fill {width n : Nat} : Plain (fill width n) := by
  rw [plain_iff]
  intro c hc
  rw [eq_blank_of_mem_fill hc]
  rfl

theorem plain_number {width n : Nat} : Plain (alignRight width (toString n)) := by
  rw [plain_iff]
  intro c hc
  rcases blank_or_digit_of_mem_alignRight hc with blank | digit
  · rw [blank]
    rfl
  · simp [isPlain, digit]

theorem Situation.plain_name (d : Situation) : Plain d.name := by
  cases d <;> decide +kernel

/-- The line of a row up to the set. -/
def Row.front (r : Row) : String :=
  alignRight 2 (toString r.situation.ordinal) ++ "  " ++ alignLeft 34 r.name ++ " "

theorem Row.line_eq (r : Row) : r.line = r.front ++ r.set.render ++ "\n" := rfl

namespace Situation

theorem plain_front (d : Situation) : Plain d.row.front := by
  have name : Plain (alignLeft 34 d.row.name) := d.plain_name.append plain_fill
  exact ((plain_number.append (by decide)).append name).append (by decide)

theorem isLine_rowLine (d : Situation) : IsLine d.row.line := by
  rw [Row.line_eq]
  apply isLine_append_newline
  rw [String.toList_append, List.mem_append, not_or]
  exact ⟨d.plain_front.not_mem (by decide), newline_not_mem_render _⟩

theorem isLine_line (d : Situation) : IsLine d.line := by
  have blanks : Plain "  " := by decide
  exact isLine_append_newline (((plain_number.append blanks).append d.plain_name).not_mem
    (by decide))

end Situation

theorem row_of_mem_syncTable {r : Row} (h : r ∈ syncTable) : r = r.situation.row := by
  have found := syncTable_wellFormed.rowAt?_of_mem h
  rw [rowAt?_syncTable] at found
  exact (Option.some.inj found).symm

/-- The lines of the whole table are the lines of its rows. -/
theorem lines_table : lines Report.table.output = syncTable.map Row.line := by
  apply lines_join
  intro l hl
  obtain ⟨r, hr, same⟩ := List.mem_map.mp hl
  rw [← same, row_of_mem_syncTable hr]
  exact r.situation.isLine_rowLine

theorem getElem?_lines_table (d : Situation) :
    (lines Report.table.output)[d.ordinal]? = some d.row.line := by
  have hr : syncTable[d.ordinal]? = some d.row := rowAt?_syncTable d
  rw [lines_table, List.getElem?_map, hr, Option.map_some]

end PanicMode
