import PanicMode.Proofs.ArgumentLaws
import PanicMode.Proofs.RawLookup

namespace PanicMode

/-- The commands that ask about one value. -/
inductive Inquiry where
  | situation
  | resuming

namespace Inquiry

def word : Inquiry → String
  | .situation => "show"
  | .resuming => "which"

def command : Inquiry → String → Command
  | .situation => .situation
  | .resuming => .resuming

def answer : Inquiry → String → Except QueryError Report
  | .situation => Report.situation
  | .resuming => Report.resuming

end Inquiry

/-- The commands that take no value. -/
inductive Overview where
  | list
  | check

namespace Overview

def word : Overview → String
  | .list => "list"
  | .check => "check"

def command : Overview → Command
  | .list => .list
  | .check => .check

def report : Overview → Report
  | .list => Report.table
  | .check => Report.check

end Overview

/-- The arguments that are left when a first `--` may be dropped. -/
def Leaves (args rest : List String) : Prop := args = rest ∨ args = "--" :: rest

/-- A report alone on the standard output, or a message alone on the standard error. -/
structure Outcome.Tells (o : Outcome) (answer : Except QueryError Report) : Prop where
  of_ok : ∀ r, answer = .ok r → o = ⟨0, r.output, ""⟩
  of_error : ∀ e, answer = .error e → o = ⟨1, "", "error: " ++ e.message ++ "\n"⟩

def Outcome.Misused (o : Outcome) : Prop := o.exitCode = 2 ∧ o.stdout = ""

/-- The program hands each value on as it stands and tells the answer of the command. It refuses
argument lists that name no command or have too few or too many values. -/
structure WrapsCommands (run : List String → Outcome) : Prop where
  separated : ∀ (q : Inquiry) v, (run [q.word, "--", v]).Tells (q.answer v)
  plain : ∀ (q : Inquiry) v, Ordinary v → (run [q.word, v]).Tells (q.answer v)
  overview : ∀ o : Overview, run [o.word] = ⟨0, o.report.output, ""⟩
  overview_separated : ∀ o : Overview, run [o.word, "--"] = ⟨0, o.report.output, ""⟩
  missing : ∀ q : Inquiry, (run [q.word]).Misused
  missing_separated : ∀ q : Inquiry, (run [q.word, "--"]).Misused
  surplus : ∀ (q : Inquiry) args rest, Leaves args rest → 2 ≤ rest.length →
    (∀ a ∈ rest, Ordinary a) → (run (q.word :: args)).Misused
  overview_surplus : ∀ (o : Overview) args rest, Leaves args rest → 1 ≤ rest.length →
    (∀ a ∈ rest, Ordinary a) → (run (o.word :: args)).Misused
  nothing : (run []).Misused
  unknown : ∀ first rest, first ≠ "help" → (∀ q : Inquiry, first ≠ q.word) →
    (∀ o : Overview, first ≠ o.word) → ¬IsFlag "--help" 'h' first →
    ¬IsFlag "--version" 'V' first → (run (first :: rest)).Misused

theorem Form.build?_plain_eq_none {α : Type} {vs : List String} (result : α) (given : vs ≠ []) :
    (Form.plain result).build? vs = none := by
  cases vs with
  | nil => exact absurd rfl given
  | cons v vs => rfl

theorem Form.build?_valued_eq_none {α : Type} {vs : List String} (name about : String)
    (hyphens : Bool) (make : String → α) (count : vs.length ≠ 1) :
    (Form.valued name about hyphens make).build? vs = none := by
  match vs, count with
  | [], _ => rfl
  | [_], one => exact absurd rfl one
  | _ :: _ :: _, _ => rfl

namespace Inquiry

theorem word_ne_help (q : Inquiry) : q.word ≠ "help" := by
  cases q <;> decide

theorem exists_declared (q : Inquiry) : ∃ s, Command.interface.find? q.word = some s ∧
    s.form.TakesHyphens ∧ ∃ name about, s.form = .valued name about true q.command := by
  cases q <;> exact ⟨_, rfl, rfl, _, _, rfl⟩

theorem report_command (q : Inquiry) (v : String) : (q.command v).report = q.answer v := by
  cases q <;> rfl

end Inquiry

namespace Overview

theorem word_ne_help (o : Overview) : o.word ≠ "help" := by
  cases o <;> decide

theorem exists_declared (o : Overview) :
    ∃ s, Command.interface.find? o.word = some s ∧ s.form.TakesHyphens ∧
      s.form = .plain o.command := by
  cases o <;> exact ⟨_, rfl, trivial, rfl⟩

theorem report_command (o : Overview) : o.command.report = .ok o.report := by
  cases o <;> rfl

end Overview

theorem Command.find?_eq_none {first : String} (inquiry : ∀ q : Inquiry, first ≠ q.word)
    (overview : ∀ o : Overview, first ≠ o.word) : Command.interface.find? first = none := by
  have list : "list" ≠ first := (overview .list).symm
  have situation : "show" ≠ first := (inquiry .situation).symm
  have resuming : "which" ≠ first := (inquiry .resuming).symm
  have check : "check" ≠ first := (overview .check).symm
  simp [Interface.find?, Command.interface, list, situation, resuming, check]

theorem Report.success_of_answer {q : Inquiry} {v : String} {r : Report}
    (h : q.answer v = .ok r) : r.success = true := by
  cases q with
  | situation =>
    simp only [Inquiry.answer, Report.situation] at h
    cases hd : Situation.resolve v with
    | error e =>
      rw [hd] at h
      cases h
    | ok d =>
      rw [hd] at h
      exact congrArg Report.success (Except.ok.inj h).symm
  | resuming =>
    simp only [Inquiry.answer, Report.resuming] at h
    split at h
    next => exact congrArg Report.success (Except.ok.inj h).symm
    next => cases h

theorem Report.success_check : Report.check.success = true := by
  rw [Report.check, Report.verdict, violations_syncTable]

theorem Report.success_overview (o : Overview) : o.report.success = true := by
  cases o with
  | list => rfl
  | check => exact Report.success_check

theorem Spells.of_leaves {args rest : List String} (leaves : Leaves args rest)
    (ordinary : ∀ a ∈ rest, Ordinary a) : Spells args rest := by
  rcases leaves with same | same
  · subst same
    exact .ordinary ordinary
  · subst same
    exact .separated rest

namespace Outcome

theorem tells_ofReport (q : Inquiry) (v : String) :
    (ofReport (q.answer v)).Tells (q.answer v) where
  of_ok r h := by
    rw [h, ofReport, Report.success_of_answer h]
    rfl
  of_error e h := by
    rw [h]
    rfl

section

variable {reader : ArgumentReader} {args vs : List String}

theorem run_of_read {c : Command} (h : reader.read Command.interface args = .ok c) :
    run reader args = ofReport c.report := by
  rw [run, h]

variable (lawful : reader.Lawful)

include lawful

theorem misused_of_read
    (h : ∃ text, reader.read Command.interface args = .error (.misuse text)) :
    (run reader args).Misused := by
  obtain ⟨text, misuse⟩ := h
  have told : run reader args = ⟨2, "", text⟩ := by
    simp only [run, misuse, lawful.stops]
  rw [told]
  exact ⟨rfl, rfl⟩

theorem tells_inquiry (q : Inquiry) {v : String} (spells : Spells args [v]) :
    (run reader (q.word :: args)).Tells (q.answer v) := by
  obtain ⟨s, found, hyphens, name, about, form⟩ := q.exists_declared
  have built : s.form.build? [v] = some (q.command v) := by
    rw [form]
    rfl
  rw [run_of_read (lawful.accepts _ _ s _ _ _ found q.word_ne_help hyphens spells built),
    q.report_command]
  exact tells_ofReport q v

theorem misused_inquiry (q : Inquiry) (spells : Spells args vs) (count : vs.length ≠ 1) :
    (run reader (q.word :: args)).Misused := by
  obtain ⟨s, found, hyphens, name, about, form⟩ := q.exists_declared
  have refused : s.form.build? vs = none := by
    rw [form]
    exact Form.build?_valued_eq_none name about true q.command count
  exact misused_of_read lawful
    (lawful.counts _ _ s _ _ found q.word_ne_help hyphens spells refused)

theorem run_overview (o : Overview) (spells : Spells args []) :
    run reader (o.word :: args) = ⟨0, o.report.output, ""⟩ := by
  obtain ⟨s, found, hyphens, form⟩ := o.exists_declared
  have built : s.form.build? [] = some o.command := by
    rw [form]
    rfl
  rw [run_of_read (lawful.accepts _ _ s _ _ _ found o.word_ne_help hyphens spells built),
    o.report_command, ofReport, Report.success_overview]
  rfl

theorem misused_overview (o : Overview) (spells : Spells args vs) (given : vs ≠ []) :
    (run reader (o.word :: args)).Misused := by
  obtain ⟨s, found, hyphens, form⟩ := o.exists_declared
  have refused : s.form.build? vs = none := by
    rw [form]
    exact Form.build?_plain_eq_none o.command given
  exact misused_of_read lawful
    (lawful.counts _ _ s _ _ found o.word_ne_help hyphens spells refused)

end

end Outcome

end PanicMode
