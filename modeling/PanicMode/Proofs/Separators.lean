import PanicMode.Proofs.Lines
import Std.Data.String.ToNat

namespace PanicMode

section

variable {c : Char} {a b x y : List Char}

/-- The first occurrence of a character has one place. -/
theorem append_cons_inj_of_not_mem_front (ha : c ∉ a) (hb : c ∉ b)
    (h : a ++ c :: x = b ++ c :: y) : a = b ∧ x = y := by
  induction a generalizing b with
  | nil =>
    cases b with
    | nil => exact ⟨rfl, (List.cons.inj h).2⟩
    | cons d b => exact absurd ((List.cons.inj h).1 ▸ List.mem_cons_self) hb
  | cons d a ih =>
    cases b with
    | nil => exact absurd ((List.cons.inj h).1 ▸ List.mem_cons_self) ha
    | cons e b =>
      obtain ⟨head, tail⟩ := List.cons.inj h
      obtain ⟨front, rest⟩ := ih (fun hc => ha (List.mem_cons_of_mem d hc))
        (fun hc => hb (List.mem_cons_of_mem e hc)) tail
      exact ⟨List.cons_eq_cons.mpr ⟨head, front⟩, rest⟩

theorem append_cons_inj_of_not_mem_rest (hx : c ∉ x) (hy : c ∉ y)
    (h : a ++ c :: x = b ++ c :: y) : a = b ∧ x = y := by
  have back := congrArg List.reverse h
  simp only [List.reverse_append, List.reverse_cons, List.append_assoc,
    List.singleton_append] at back
  obtain ⟨rest, front⟩ := append_cons_inj_of_not_mem_front (by simpa using hx)
    (by simpa using hy) back
  exact ⟨List.reverse_inj.mp front, List.reverse_inj.mp rest⟩

end

section

variable {c : Char} {sep a b x y : String}

/-- A text is cut behind a column. -/
theorem cut_at_width (width : a.toList.length = b.toList.length) (h : a ++ x = b ++ y) :
    a = b ∧ x = y := by
  have texts := congrArg String.toList h
  rw [String.toList_append, String.toList_append] at texts
  obtain ⟨columns, rest⟩ := List.append_inj texts width
  exact ⟨String.toList_inj.mp columns, String.toList_inj.mp rest⟩

/-- A text is cut where its first separator begins. -/
theorem cut_at_first (hsep : sep.toList.head? = some c) (ha : c ∉ a.toList) (hb : c ∉ b.toList)
    (h : a ++ sep ++ x = b ++ sep ++ y) : a = b ∧ x = y := by
  obtain ⟨rest, hrest⟩ := List.head?_eq_some_iff.mp hsep
  have texts := congrArg String.toList h
  simp only [String.toList_append, hrest, List.append_assoc, List.cons_append] at texts
  obtain ⟨front, tail⟩ := append_cons_inj_of_not_mem_front ha hb texts
  exact ⟨String.toList_inj.mp front, String.toList_inj.mp (List.append_cancel_left tail)⟩

/-- A text is cut where its last separator ends. -/
theorem cut_at_last (hsep : sep.toList.getLast? = some c) (hx : c ∉ x.toList) (hy : c ∉ y.toList)
    (h : a ++ sep ++ x = b ++ sep ++ y) : a = b ∧ x = y := by
  obtain ⟨front, hfront⟩ := List.getLast?_eq_some_iff.mp hsep
  have texts := congrArg String.toList h
  simp only [String.toList_append, hfront] at texts
  rw [← List.append_assoc, ← List.append_assoc, List.append_assoc _ [c], List.append_assoc _ [c]]
    at texts
  obtain ⟨head, rest⟩ := append_cons_inj_of_not_mem_rest hx hy texts
  exact ⟨String.toList_inj.mp (List.append_cancel_right head), String.toList_inj.mp rest⟩

end

theorem blank_not_mem_toString (n : Nat) : ' ' ∉ (toString n).toList := by
  intro h
  rw [Nat.toString_eq_repr, Nat.toList_repr] at h
  have digit := Nat.isDigit_of_mem_toDigits (by decide) (by decide) h
  simp at digit

theorem fill_append_blank {width n : Nat} : fill width n ++ " " = " " ++ fill width n := by
  apply String.toList_inj.mp
  simp only [fill, String.toList_append, String.toList_ofList]
  exact List.replicate_succ'.symm.trans List.replicate_succ

/-- A number is found again at the right end of its column. -/
theorem alignRight_toString_injective {width m n : Nat}
    (h : alignRight width (toString m) = alignRight width (toString n)) : m = n := by
  have blank : " " ++ alignRight width (toString m) = " " ++ alignRight width (toString n) := by
    rw [h]
  rw [alignRight, alignRight, ← String.append_assoc, ← String.append_assoc, ← fill_append_blank,
    ← fill_append_blank] at blank
  have numbers := (cut_at_last rfl (blank_not_mem_toString m) (blank_not_mem_toString n) blank).2
  exact Nat.repr_inj.mp numbers

/-- A text without blanks is found again at the left end of its column, however long it is. -/
theorem alignLeft_append_injective {width : Nat} {a b x y : String} (ha : ' ' ∉ a.toList)
    (hb : ' ' ∉ b.toList) (h : alignLeft width a ++ " " ++ x = alignLeft width b ++ " " ++ y) :
    a = b ∧ x = y := by
  have texts : a ++ " " ++ (fill width a.length ++ x) = b ++ " " ++ (fill width b.length ++ y) := by
    simpa only [alignLeft, String.append_assoc, fill_append_blank] using h
  obtain ⟨names, rest⟩ := cut_at_first rfl ha hb texts
  subst names
  exact ⟨rfl, (String.append_right_inj _).mp rest⟩

end PanicMode
