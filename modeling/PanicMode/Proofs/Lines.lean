import PanicMode.Report

namespace PanicMode

/-- The lines of a text, each with its newline, which only the last one may lack. -/
def cutLines : List Char → List (List Char)
  | [] => []
  | c :: cs =>
    if c = '\n' then [c] :: cutLines cs
    else match cutLines cs with
      | [] => [[c]]
      | l :: ls => (c :: l) :: ls

def lines (text : String) : List String := (cutLines text.toList).map String.ofList

/-- A text whose only newline ends it. -/
def IsLine (l : String) : Prop := ∃ body, l.toList = body ++ ['\n'] ∧ '\n' ∉ body

theorem cutLines_append_newline {body : List Char} (h : '\n' ∉ body) (rest : List Char) :
    cutLines (body ++ '\n' :: rest) = (body ++ ['\n']) :: cutLines rest := by
  induction body with
  | nil => rfl
  | cons c body ih =>
    obtain ⟨hc, hbody⟩ := List.ne_and_not_mem_of_not_mem_cons h
    rw [List.cons_append, cutLines, if_neg (Ne.symm hc), ih hbody]
    rfl

/-- Lines that are put one after the other are found again. -/
theorem lines_join {ls : List String} (h : ∀ l ∈ ls, IsLine l) : lines (String.join ls) = ls := by
  induction ls with
  | nil => rfl
  | cons l ls ih =>
    obtain ⟨⟨body, hl, hbody⟩, hls⟩ := List.forall_mem_cons.mp h
    have rest := ih hls
    unfold lines at rest ⊢
    rw [String.join_cons, String.toList_append, hl, List.append_assoc, List.singleton_append,
      cutLines_append_newline hbody, List.map_cons, rest, ← hl, String.ofList_toList]

theorem lines_of_isLine {l : String} (h : IsLine l) : lines l = [l] := by
  have single : lines (String.join [l]) = [l] := lines_join (by simpa using h)
  rwa [String.join_cons, String.join_nil, String.append_empty] at single

theorem isLine_append_newline {body : String} (h : '\n' ∉ body.toList) : IsLine (body ++ "\n") :=
  ⟨body.toList, String.toList_append, h⟩

theorem eq_blank_of_mem_fill {width n : Nat} {c : Char} (h : c ∈ (fill width n).toList) :
    c = ' ' := by
  rw [fill, String.toList_ofList] at h
  exact List.eq_of_mem_replicate h

theorem alignRight_toString (width n : Nat) :
    alignRight width (toString n) = String.ofList
      (List.replicate (width - (Nat.toDigits 10 n).length) ' ' ++ Nat.toDigits 10 n) := by
  rw [alignRight, fill, Nat.toString_eq_ofList_toDigits, String.length_ofList,
    String.ofList_append]

/-- A column of numbers holds blanks and digits. -/
theorem blank_or_digit_of_mem_alignRight {width n : Nat} {c : Char}
    (h : c ∈ (alignRight width (toString n)).toList) : c = ' ' ∨ c.isDigit = true := by
  rw [alignRight, String.toList_append, List.mem_append] at h
  refine h.imp eq_blank_of_mem_fill fun hc => ?_
  rw [Nat.toString_eq_repr, Nat.toList_repr] at hc
  exact Nat.isDigit_of_mem_toDigits (by decide) (by decide) hc

end PanicMode
