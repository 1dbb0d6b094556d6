import Assay.CommandLine.Reader

/-!
# The commands and what they take

Four commands: running tools against a corpus, comparing two stored runs, validating a corpus and
listing the tools. A command line is read in two steps, first the options in front of the name of a
command and then what follows it; words that neither takes are a fault of the whole.
-/

namespace Assay.CommandLine

/-- What a run takes. -/
structure RunArguments where
  corpus : String
  tool : String
  out : String
  crosswalk : Option String
  toolOutput : Option String
  command : Option String
  toolVersion : Option String
  /-- Numbers are values, so that what was not given is null. -/
  timeout : Value
  tolerance : Value
  coarseDiscount : Value
  store : Option String
  noStore : Bool
  timestamp : Option String
  config : Option String
  deriving Inhabited

/-- What a comparison takes. -/
structure CompareArguments where
  baseline : String
  candidate : String
  store : Option String
  threshold : Value
  out : Option String
  failOnRegression : Bool
  config : Option String
  deriving Inhabited

/-- What a validation takes. -/
structure ValidateArguments where
  corpus : String
  crosswalk : Option String
  deriving Repr, DecidableEq, Inhabited

/-- What is asked for. -/
inductive Order where
  | run (a : RunArguments)
  | compare (a : CompareArguments)
  | validate (a : ValidateArguments)
  | listTools

/-- A command line that has been read. -/
structure Request where
  logFile : Option String
  order : Order

/-- The name of the program. -/
def programName : String := "defect-bench"

/-- The version of the program. -/
def programVersion : String := "0.3.0"

/-- The option that asks for help. -/
def helpFlag : Flag := ⟨["-h", "--help"], .help, false⟩

/-- The names of the commands. -/
def commandNames : List String := ["run", "compare", "validate-corpus", "tools"]

/-- What stands before the name of a command. -/
def mainGrammar : Grammar :=
  { program := programName
    flags := [helpFlag, ⟨["--version"], .version, false⟩, ⟨["-v", "--verbose"], .count, false⟩,
      .optional "--log-file" .text]
    positional := some (.command "COMMAND" commandNames) }

/-- What follows the name of a command. -/
def grammarOf (command : String) (flags : List Flag) (positional : Option Positional) : Grammar :=
  ⟨programName ++ " " ++ command, helpFlag :: flags, positional⟩

/-- What a run takes. -/
def runGrammar : Grammar := grammarOf "run" [
  .needed "--corpus", .needed "--tool", .needed "--out", .optional "--crosswalk" .text,
  .optional "--tool-output" .text, .optional "--command" .text, .optional "--tool-version" .text,
  .optional "--timeout" .integer, .optional "--tolerance" .integer,
  .optional "--coarse-discount" .number, .optional "--store" .text, .optional "--no-store" .flag,
  .optional "--timestamp" .text, .optional "--config" .text] none

/-- What a comparison takes. -/
def compareGrammar : Grammar := grammarOf "compare" [
  .needed "--baseline", .needed "--candidate", .optional "--store" .text,
  .optional "--threshold" .number, .optional "--out" .text,
  .optional "--fail-on-regression" .flag, .optional "--config" .text] none

/-- What a validation takes. -/
def validateGrammar : Grammar :=
  grammarOf "validate-corpus" [.optional "--crosswalk" .text] (some (.one "corpus"))

/-- What the listing of tools takes. -/
def toolsGrammar : Grammar := grammarOf "tools" [] none

/-- The arguments of a run. -/
def RunArguments.ofFound (r : Found) : RunArguments :=
  { corpus := (r.text? "--corpus").getD ""
    tool := (r.text? "--tool").getD ""
    out := (r.text? "--out").getD ""
    crosswalk := r.text? "--crosswalk"
    toolOutput := r.text? "--tool-output"
    command := r.text? "--command"
    toolVersion := r.text? "--tool-version"
    timeout := r.get "--timeout"
    tolerance := r.get "--tolerance"
    coarseDiscount := r.get "--coarse-discount"
    store := r.text? "--store"
    noStore := r.has "--no-store"
    timestamp := r.text? "--timestamp"
    config := r.text? "--config" }

/-- The arguments of a comparison. -/
def CompareArguments.ofFound (r : Found) : CompareArguments :=
  { baseline := (r.text? "--baseline").getD ""
    candidate := (r.text? "--candidate").getD ""
    store := r.text? "--store"
    threshold := r.get "--threshold"
    out := r.text? "--out"
    failOnRegression := r.has "--fail-on-regression"
    config := r.text? "--config" }

/-- The arguments of a validation. -/
def ValidateArguments.ofFound (r : Found) : ValidateArguments :=
  ⟨((r.argument.map (·.1)).getD ""), r.text? "--crosswalk"⟩

/-- What a command takes and what its words ask for. -/
def orderOf (command : String) : Grammar × (Found → Order) :=
  if command = "run" then (runGrammar, fun r => .run (.ofFound r))
  else if command = "compare" then (compareGrammar, fun r => .compare (.ofFound r))
  else if command = "validate-corpus" then (validateGrammar, fun r => .validate (.ofFound r))
  else (toolsGrammar, fun _ => .listTools)

/-- What a command line asks for. -/
def Request.ofWords (words : List String) : Except Halt Request := do
  let front ← readAll mainGrammar words
  let (command, rest) := front.argument.getD ("", [])
  let (grammar, order) := orderOf command
  let found ← readAll grammar rest
  match front.extras ++ found.extras with
  | [] => return ⟨front.text? "--log-file", order found⟩
  | extras => mainGrammar.refuse ("unrecognized arguments: " ++ " ".intercalate extras)

end Assay.CommandLine
