import PanicMode.CommandLine

/-!
The outer layer of the program: the reader of command lines that the program is run with. Nothing is
proved about the program through the definitions below, only that they obey the laws of a reader.
-/

namespace PanicMode.Arguments

/-- Whether an argument is a flag, by its word or by its letter. Single-letter flags may be run
together, and the first one decides. -/
def isFlag (word : String) (letter : Char) (arg : String) : Bool :=
  arg == word || ['-', letter].isPrefixOf arg.toList

/-- Whether an argument that could also be a value asks for help. A run of letters does so only if
each of them is the flag. -/
def asksForHelp (arg : String) : Bool :=
  arg == "--help" || (isFlag "--help" 'h' arg && (arg.toList.drop 1).all (· == 'h'))

/-- The flag for help takes no value, so a value joined to it breaks the rules of use. -/
def joinsValueToHelp (arg : String) : Bool := "--help=".toList.isPrefixOf arg.toList

def helpSection (title : String) (rows : List (String × String)) : String :=
  let width := (rows.map (fun r => r.1.length)).foldl max 0
  "\n" ++ title ++ ":\n" ++
    String.join (rows.map (fun r => "  " ++ alignLeft width r.1 ++ "  " ++ r.2 ++ "\n"))

def helpText (about usage : String) (sections : List (String × List (String × String))) : String :=
  about ++ "\n\nUsage: " ++ usage ++ "\n" ++ String.join (sections.map (fun s => helpSection s.1 s.2))

def refuse (usage reason : String) : Stop :=
  .misuse ("error: " ++ reason ++ "\n\nUsage: " ++ usage ++
    "\n\nFor more information, try '--help'.\n")

def helpFlag : String × String := ("-h, --help", "Print help")

def helpAbout : String := "Print this message or the help of the given subcommand(s)"

section

variable {α : Type} (i : Interface α) (s : Subcommand α)

def programUsage : String := i.program ++ " <COMMAND>"

def programHelp : String :=
  helpText i.about (programUsage i)
    [("Commands", i.subcommands.map (fun s => (s.name, s.about)) ++ [("help", helpAbout)]),
      ("Options", [helpFlag, ("-V, --version", "Print version")])]

def subcommandUsage : String :=
  i.program ++ " " ++ s.name ++
    match s.form with
    | .plain _ => ""
    | .valued name _ _ _ => " <" ++ name ++ ">"

def subcommandHelp : String :=
  helpText s.about (subcommandUsage i s)
    ((match s.form with
      | .plain _ => []
      | .valued name about _ _ => [("Arguments", [("<" ++ name ++ ">", about)])]) ++
      [("Options", [helpFlag])])

def helpHelp : String :=
  helpText helpAbout (i.program ++ " help [COMMAND]...")
    [("Arguments", [("[COMMAND]...", "Print help for the subcommand(s)")])]

def unrecognized (name : String) : Stop :=
  refuse (programUsage i) ("unrecognized subcommand '" ++ name ++ "'")

def unexpected (arg : String) : Stop :=
  refuse (subcommandUsage i s) ("unexpected argument '" ++ arg ++ "' found")

/-- Reads what can only be values. -/
def build (vs : List String) : Except Stop α :=
  match s.form, vs with
  | .plain result, [] => .ok result
  | .plain _, v :: _ => .error (unexpected i s v)
  | .valued name _ _ _, [] =>
    .error (refuse (subcommandUsage i s)
      ("the following required arguments were not provided:\n  <" ++ name ++ ">"))
  | .valued _ _ _ make, [v] => .ok (make v)
  | .valued _ _ _ _, _ :: v :: _ => .error (unexpected i s v)

/-- What follows the values. A lone `--` is no argument itself. -/
def finish (result : α) : List String → Except Stop α
  | [] => .ok result
  | arg :: rest =>
    if arg = "--" ∧ rest = [] then .ok result
    else if isFlag "--help" 'h' arg then .error (.asked (subcommandHelp i s))
    else .error (unexpected i s arg)

/-- The arguments after a subcommand when the first of them is not `--`. -/
def readFirst (arg : String) (rest : List String) : Except Stop α :=
  match s.form with
  | .plain result => finish i s result (arg :: rest)
  | .valued _ _ hyphens make =>
    if joinsValueToHelp arg then
      .error (refuse (subcommandUsage i s) ("unexpected value '" ++
        String.ofList (arg.toList.drop 7) ++ "' for '--help' found; no more were expected"))
    else if asksForHelp arg then .error (.asked (subcommandHelp i s))
    else if !hyphens && ['-'].isPrefixOf arg.toList && arg != "-" then .error (unexpected i s arg)
    else finish i s (make arg) rest

/-- The arguments after a subcommand. Everything after a first `--` is a value. -/
def readValues : List String → Except Stop α
  | [] => build i s []
  | arg :: rest => if arg = "--" then build i s rest else readFirst i s arg rest

/-- Help may name one command. -/
def help : List String → Stop
  | [] => .asked (programHelp i)
  | name :: more =>
    match i.find? name, more with
    | some s, [] => .asked (subcommandHelp i s)
    | some _, next :: _ => unrecognized i next
    | none, [] => if name = "help" then .asked (helpHelp i) else unrecognized i name
    | none, next :: _ => unrecognized i (if name = "help" then next else name)

def read : List String → Except Stop α
  | [] => .error (.misuse (programHelp i))
  | first :: args =>
    match i.find? first with
    | some s => readValues i s args
    | none =>
      if first = "help" then .error (help i args)
      else if isFlag "--version" 'V' first then
        .error (.asked (i.program ++ " " ++ i.version ++ "\n"))
      else if isFlag "--help" 'h' first then .error (.asked (programHelp i))
      else .error (unrecognized i first)

end

def stop : Stop → Outcome
  | .asked text => ⟨0, text, ""⟩
  | .misuse text => ⟨2, "", text⟩

def reader : ArgumentReader where
  read := read
  stop := stop

end PanicMode.Arguments
