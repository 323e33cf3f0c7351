import PanicMode.Arguments

namespace PanicMode

/-- An argument that does not end the flags and does not begin like a request for help. -/
structure Ordinary (arg : String) : Prop where
  not_separator : arg ≠ "--"
  not_letter : ¬['-', 'h'] <+: arg.toList
  not_word : ¬"--help".toList <+: arg.toList

theorem ordinary_iff {arg : String} : Ordinary arg ↔
    arg ≠ "--" ∧ ¬['-', 'h'] <+: arg.toList ∧ ¬"--help".toList <+: arg.toList :=
  ⟨fun h => ⟨h.not_separator, h.not_letter, h.not_word⟩, fun h => ⟨h.1, h.2.1, h.2.2⟩⟩

instance (arg : String) : Decidable (Ordinary arg) := decidable_of_iff' _ ordinary_iff

/-- The argument is the flag, by its word, or it begins with its letter. -/
def IsFlag (word : String) (letter : Char) (arg : String) : Prop :=
  arg = word ∨ ['-', letter] <+: arg.toList

instance (word : String) (letter : Char) (arg : String) : Decidable (IsFlag word letter arg) :=
  inferInstanceAs (Decidable (arg = word ∨ ['-', letter] <+: arg.toList))

/-- No value of the form is kept from beginning with a hyphen. -/
def Form.TakesHyphens {α : Type} : Form α → Prop
  | .plain _ => True
  | .valued _ _ hyphens _ => hyphens = true

/-- Arguments after a subcommand that can only stand for these values, hyphens allowed. -/
inductive Spells : List String → List String → Prop where
  | separated (vs : List String) : Spells ("--" :: vs) vs
  | ordinary {vs : List String} (h : ∀ v ∈ vs, Ordinary v) : Spells vs vs

/-- What is documented of readers, for any interface. The word for help is theirs. -/
structure ArgumentReader.Lawful (reader : ArgumentReader) : Prop where
  /-- A subcommand is chosen by its exact name. After a first `--` all arguments are values, before
  it those that are no flags are. The values are handed on as they stand. -/
  accepts : ∀ {α : Type} (i : Interface α) (name : String) (s : Subcommand α)
    (args vs : List String) (result : α), i.find? name = some s → name ≠ "help" →
      s.form.TakesHyphens → Spells args vs → s.form.build? vs = some result →
      reader.read i (name :: args) = .ok result
  /-- A value that is required and missing, or that is one too many, is a misuse. -/
  counts : ∀ {α : Type} (i : Interface α) (name : String) (s : Subcommand α)
    (args vs : List String), i.find? name = some s → name ≠ "help" →
      s.form.TakesHyphens → Spells args vs → s.form.build? vs = none →
      ∃ text, reader.read i (name :: args) = .error (.misuse text)
  /-- To give no subcommand is a misuse. -/
  requires : ∀ {α : Type} (i : Interface α), ∃ text, reader.read i [] = .error (.misuse text)
  /-- A first argument that is no subcommand, not the word for help and no flag is a misuse. -/
  recognizes : ∀ {α : Type} (i : Interface α) (first : String) (rest : List String),
    i.find? first = none → first ≠ "help" → ¬IsFlag "--help" 'h' first →
      ¬IsFlag "--version" 'V' first →
      ∃ text, reader.read i (first :: rest) = .error (.misuse text)
  /-- A misuse is told on the standard error, and the exit code is 2. -/
  stops : ∀ text, reader.stop (.misuse text) = ⟨2, "", text⟩

namespace Arguments

theorem isFlag_eq_true_iff {word arg : String} {letter : Char} :
    isFlag word letter arg = true ↔ IsFlag word letter arg := by
  rw [isFlag, Bool.or_eq_true, beq_iff_eq, List.isPrefixOf_iff_prefix, IsFlag]

section

variable {arg : String} (h : Ordinary arg)

include h

theorem isFlag_help_of_ordinary : isFlag "--help" 'h' arg = false := by
  rw [Bool.eq_false_iff, ne_eq, isFlag_eq_true_iff, IsFlag, not_or]
  exact ⟨fun same => h.not_word (same ▸ List.prefix_refl _), h.not_letter⟩

theorem asksForHelp_of_ordinary : asksForHelp arg = false := by
  have other : (arg == "--help") = false :=
    beq_eq_false_iff_ne.mpr fun same => h.not_word (same ▸ List.prefix_refl _)
  rw [asksForHelp, other, isFlag_help_of_ordinary h]
  rfl

theorem joinsValueToHelp_of_ordinary : joinsValueToHelp arg = false := by
  have shorter : "--help".toList <+: "--help=".toList := by decide
  rw [joinsValueToHelp, Bool.eq_false_iff, ne_eq, List.isPrefixOf_iff_prefix]
  exact fun longer => h.not_word (shorter.trans longer)

end

section

variable {α : Type} {i : Interface α} {s : Subcommand α} {args vs : List String}

/-- The values are read as the form builds them, or there is a misuse. -/
def ReadsAs (s : Subcommand α) (vs : List String) (answer : Except Stop α) : Prop :=
  (∀ result, s.form.build? vs = some result → answer = .ok result) ∧
    (s.form.build? vs = none → ∃ text, answer = .error (.misuse text))

theorem build_readsAs (i : Interface α) (s : Subcommand α) (vs : List String) :
    ReadsAs s vs (build i s vs) := by
  unfold ReadsAs build Form.build?
  cases s.form with
  | plain result =>
    cases vs with
    | nil => simp
    | cons v vs => simp [unexpected, refuse]
  | valued name about hyphens make =>
    match vs with
    | [] => simp [refuse]
    | [v] => simp
    | v :: w :: vs => simp [unexpected, refuse]

theorem finish_cons_of_ordinary {arg : String} (h : Ordinary arg) (result : α)
    (rest : List String) :
    finish i s result (arg :: rest) = .error (unexpected i s arg) := by
  simp [finish, h.not_separator, isFlag_help_of_ordinary h]

theorem readFirst_readsAs {arg : String} {rest : List String} (hyphens : s.form.TakesHyphens)
    (first : Ordinary arg) (others : ∀ v ∈ rest, Ordinary v) :
    ReadsAs s (arg :: rest) (readFirst i s arg rest) := by
  unfold ReadsAs readFirst Form.build?
  cases hf : s.form with
  | plain result => simp [finish_cons_of_ordinary first, unexpected, refuse]
  | valued name about allowed make =>
    have free : allowed = true := by
      rw [hf] at hyphens
      exact hyphens
    cases rest with
    | nil =>
      simp [joinsValueToHelp_of_ordinary first, asksForHelp_of_ordinary first, free, finish]
    | cons next more =>
      have second : Ordinary next := others next List.mem_cons_self
      have surplus := finish_cons_of_ordinary (i := i) (s := s) second (make arg) more
      simp [joinsValueToHelp_of_ordinary first, asksForHelp_of_ordinary first, free, surplus,
        unexpected, refuse]

theorem readValues_readsAs (hyphens : s.form.TakesHyphens) (spells : Spells args vs) :
    ReadsAs s vs (readValues i s args) := by
  cases spells with
  | separated => exact build_readsAs i s vs
  | ordinary h =>
    cases args with
    | nil => exact build_readsAs i s []
    | cons arg rest =>
      obtain ⟨first, others⟩ := List.forall_mem_cons.mp h
      rw [readValues, if_neg first.not_separator]
      exact readFirst_readsAs hyphens first others

theorem read_of_known {name : String} (found : i.find? name = some s) :
    read i (name :: args) = readValues i s args := by
  simp only [read, found]

theorem read_of_unknown {first : String} (unknown : i.find? first = none) (noHelp : first ≠ "help")
    (noHelpFlag : ¬IsFlag "--help" 'h' first) (noVersionFlag : ¬IsFlag "--version" 'V' first) :
    read i (first :: args) = .error (unrecognized i first) := by
  simp only [read, unknown]
  rw [if_neg noHelp, if_neg ((not_congr isFlag_eq_true_iff).mpr noVersionFlag),
    if_neg ((not_congr isFlag_eq_true_iff).mpr noHelpFlag)]

end

/-- The laws of readers can be kept. -/
theorem lawful_reader : reader.Lawful where
  accepts _ _ _ _ _ result found _ hyphens spells built :=
    (read_of_known found).trans ((readValues_readsAs hyphens spells).1 result built)
  counts _ _ _ _ _ found _ hyphens spells refused := by
    obtain ⟨text, misuse⟩ := (readValues_readsAs hyphens spells).2 refused
    exact ⟨text, (read_of_known found).trans misuse⟩
  requires _ := ⟨_, rfl⟩
  recognizes _ _ _ unknown noHelp noHelpFlag noVersionFlag :=
    ⟨_, read_of_unknown unknown noHelp noHelpFlag noVersionFlag⟩
  stops _ := rfl

end Arguments

end PanicMode
