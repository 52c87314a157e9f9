import TransferBoard.Program.CopyRun

/-!
# A run of the program

## Main definitions

* `UsageError.lines` — what is written about arguments that are no request.
* `Shell.completion` — the completions for a shell.
* `Request.run`, `runProgram` — the run of a request, and of some arguments.
-/

namespace TransferBoard

/-! ### Usage -/

/-- The description of the program. -/
def usageLines : List String :=
  ["Usage: tdash <COMMAND>",
   "",
   "Commands:",
   "  copy [-i] -d DIR [-j N] [--checksum KIND] [--expect HEX]",
   "       [--no-verify] [--report PATH] [SRC]...",
   "  checksum [--kind KIND] PATH",
   "  completions SHELL",
   "  help [COMMAND]"]

/-- The wording of arguments that are no request. -/
def UsageError.message : UsageError → String
  | help => "description asked for"
  | missingCommand => "a command is required"
  | unknownCommand => "unrecognized command"
  | unknownArgument => "unexpected argument"
  | missingValue => "a value is required"
  | unknownChoice => "not one of the possible values"
  | malformedValue => "invalid value"
  | unneededValue => "unexpected value"
  | repeated => "an argument cannot be used multiple times"
  | missingArgument => "a required argument was not provided"

/-- The outcome of a run whose arguments are no request. To ask for the description is no
error. -/
def Surroundings.usage (s : Surroundings) (e : UsageError) : RunOutcome :=
  match e with
  | .help => (s.untouched s.home).print usageLines
  | e => { s.untouched s.home with status := 2, err := ("error: " ++ e.message) :: usageLines }

/-! ### Completions -/

/-- The words that a first argument is completed to. -/
def completionWords : String := "copy checksum completions help"

/-- The completions for a shell. -/
def Shell.completion : Shell → String
  | bash => "complete -W '" ++ completionWords ++ "' tdash"
  | elvish => "set edit:completion:arg-completer[tdash] = \x7b |@words| put "
      ++ completionWords ++ " \x7d"
  | fish => "complete -c tdash -n __fish_use_subcommand -f -a '" ++ completionWords ++ "'"
  | powershell => "Register-ArgumentCompleter -Native -CommandName tdash -ScriptBlock \x7b '"
      ++ completionWords ++ "' -split ' ' \x7d"
  | zsh => "compdef \"_arguments '1:command:(" ++ completionWords ++ ")'\" tdash"

/-! ### Runs -/

/-- The run of a request to calculate a digest. -/
def Surroundings.checksum (s : Surroundings) (path : Path) (kind : DigestKind) : RunOutcome :=
  match s.disk.digest kind path with
  | .ok digest => (s.untouched s.home).print [digest ++ "  " ++ path.text]
  | .error e => (s.untouched s.home).failed (.digest e)

/-- The run of a request. Only copies need the settings. -/
def Request.run (s : Surroundings) : Request → Option RunOutcome
  | .copy request =>
    match Config.load s.home s.configFile with
    | (.error e, home) => some ((s.untouched home).failed (.config e))
    | (.ok config, home) => request.run s config home
  | .checksum path kind => some (s.checksum path kind)
  | .completions shell => some ((s.untouched s.home).print [shell.completion])

/-- The run of the program with some arguments. Nothing comes back when a copy has to
wait forever. -/
def runProgram (arguments : List String) (s : Surroundings) : Option RunOutcome :=
  match Request.ofArguments arguments with
  | .error e => some (s.usage e)
  | .ok request => request.run s

end TransferBoard
