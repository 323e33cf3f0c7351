import PanicMode.Proofs.Departures
import PanicMode.Proofs.Separators
import PanicMode.Proofs.Spellings

namespace PanicMode

/-- How the messages about a rule open. -/
def Rule.opening : Rule → String
  | .length => "expected "
  | .position => "entry `"
  | .named => "entry at position "
  | .distinct => "duplicate name `"
  | .inhabited => "`"
  | .resuming => "`"

/-- How the messages about a rule close, if they all close alike. -/
def Rule.closing : Rule → String
  | .length => ""
  | .position => ""
  | .named => " has an empty name"
  | .distinct => "`"
  | .inhabited => "` has an empty set"
  | .resuming => "`"

/-- What stands in a message between its opening and its closing. -/
def Violation.details : Violation → String
  | .wrongLength expected found => toString expected ++ " entries, found " ++ toString found
  | .outOfPosition name position ordinal =>
    name ++ "` at position " ++ toString position ++ " belongs at " ++ toString ordinal
  | .emptyName position => toString position
  | .duplicateName name => name
  | .emptySet name => name
  | .nonResuming name k => name ++ "` contains `" ++ k.spelling

theorem message_eq (v : Violation) :
    v.message = v.rule.opening ++ v.details ++ v.rule.closing := by
  cases v with
  | wrongLength expected found =>
    change "expected " ++ toString expected ++ " entries, found " ++ toString found =
      "expected " ++ (toString expected ++ " entries, found " ++ toString found) ++ ""
    simp only [String.append_assoc, String.append_empty]
  | outOfPosition name position ordinal =>
    change "entry `" ++ name ++ "` at position " ++ toString position ++ " belongs at " ++
        toString ordinal =
      "entry `" ++ (name ++ "` at position " ++ toString position ++ " belongs at " ++
        toString ordinal) ++ ""
    simp only [String.append_assoc, String.append_empty]
  | emptyName position => rfl
  | duplicateName name => rfl
  | emptySet name => rfl
  | nonResuming name k =>
    change "`" ++ name ++ "` contains `" ++ k.spelling ++ "`" =
      "`" ++ (name ++ "` contains `" ++ k.spelling) ++ "`"
    simp only [String.append_assoc]

/-- No text can open and close as messages about two rules do. -/
theorem Rule.eq_of_frames {a b : Rule} {text : List Char}
    (ha : a.opening.toList <+: text ∧ a.closing.toList <:+ text)
    (hb : b.opening.toList <+: text ∧ b.closing.toList <:+ text) : a = b := by
  have openings := List.prefix_or_prefix_of_prefix ha.1 hb.1
  have closings := List.suffix_or_suffix_of_suffix ha.2 hb.2
  clear ha hb
  revert openings closings
  cases a <;> cases b <;> decide +kernel

theorem message_framed (v : Violation) :
    v.rule.opening.toList <+: v.message.toList ∧ v.rule.closing.toList <:+ v.message.toList := by
  rw [message_eq, String.toList_append, String.toList_append]
  refine ⟨?_, List.suffix_append _ _⟩
  rw [List.append_assoc]
  exact List.prefix_append _ _

/-- Numbers have no blank and spellings no backquote, so what stands in a message is read from its
end. -/
theorem details_injective {v w : Violation} (rules : v.rule = w.rule)
    (h : v.details = w.details) : v = w := by
  cases v with
  | wrongLength expected found =>
    cases w with
    | wrongLength expected' found' =>
      obtain ⟨lengths, counts⟩ :=
        cut_at_last rfl (blank_not_mem_toString found) (blank_not_mem_toString found') h
      rw [Nat.repr_inj.mp lengths, Nat.repr_inj.mp counts]
    | _ => cases rules
  | outOfPosition name position ordinal =>
    cases w with
    | outOfPosition name' position' ordinal' =>
      obtain ⟨front, ordinals⟩ :=
        cut_at_last rfl (blank_not_mem_toString ordinal) (blank_not_mem_toString ordinal') h
      obtain ⟨names, positions⟩ :=
        cut_at_last rfl (blank_not_mem_toString position) (blank_not_mem_toString position') front
      rw [names, Nat.repr_inj.mp positions, Nat.repr_inj.mp ordinals]
    | _ => cases rules
  | emptyName position =>
    cases w with
    | emptyName position' => rw [Nat.repr_inj.mp h]
    | _ => cases rules
  | duplicateName name =>
    cases w with
    | duplicateName name' => exact congrArg _ h
    | _ => cases rules
  | emptySet name =>
    cases w with
    | emptySet name' => exact congrArg _ h
    | _ => cases rules
  | nonResuming name k =>
    cases w with
    | nonResuming name' k' =>
      obtain ⟨names, spellings⟩ :=
        cut_at_last rfl k.backquote_not_mem_spelling k'.backquote_not_mem_spelling h
      rw [names, Terminal.spelling_injective spellings]
    | _ => cases rules

/-- A message tells its violation apart from all others, whatever the names in it are. -/
theorem message_inj {v w : Violation} : v.message = w.message ↔ v = w := by
  refine ⟨fun same => ?_, fun same => congrArg Violation.message same⟩
  have rules : v.rule = w.rule :=
    Rule.eq_of_frames (message_framed v) (same ▸ message_framed w)
  rw [message_eq, message_eq, rules, String.append_left_inj, String.append_right_inj] at same
  exact details_injective rules same

end PanicMode
