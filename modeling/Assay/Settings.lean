import Assay.Environment
import Assay.Files.Document
import Assay.Matching.Settings
import Assay.Text.Case
import Assay.Value.Convert

/-!
# Settings

The settings of a run come from four places: what the user gives explicitly, the environment, a
settings file and the defaults. The first of them that speaks decides each setting, and only then is
the value read and its range checked. What the file says of single tools is kept by the tool's name;
their commands, too, may come from the environment or from the user.
-/

namespace Assay

/-- What is set for one tool. -/
structure ToolSettings where
  command : Option String
  version : Option String
  timeout : Option Int
  deriving Repr, DecidableEq, Inhabited

/-- A tool for which nothing is set. -/
def ToolSettings.unset : ToolSettings := ⟨none, none, none⟩

/-- The settings of a run. -/
structure Settings where
  tolerance : Int
  coarseDiscount : Float
  /-- Seconds that a tool may take unless its own settings say otherwise. -/
  timeout : Int
  /-- Where runs are stored. -/
  store : Path
  /-- How far recall may fall before that counts as a regression. -/
  threshold : Float
  /-- Tools by name, each name once. -/
  tools : List (String × ToolSettings)

/-- What the user gives explicitly; null stands for what is not given. -/
structure Overrides where
  tolerance : Value
  coarseDiscount : Value
  timeout : Value
  store : Value
  threshold : Value
  toolCommands : List (String × Option String)
  /-- The tools whose commands the environment may give. -/
  knownTools : List String
  deriving Inhabited

/-- Nothing given. -/
def Overrides.none : Overrides := ⟨.null, .null, .null, .null, .null, [], []⟩

namespace Settings

/-! ## Defaults and names -/

/-- Seconds that a tool may take unless they are set. -/
def defaultTimeout : Int := 600

/-- Where runs are stored unless that is set. -/
def defaultStore : String := ".defect_bench"

/-- What the names of all variables of the program begin with. -/
def variableStart : String := "DEFECT_BENCH_"

/-- The variable that holds a setting. -/
def variableName (name : String) : String := variableStart ++ name

/-- What the names of all variables that hold commands end with. -/
def commandEnd : String := "_CMD"

/-- The variable that holds the command of a tool. -/
def commandVariable (tool : String) : String :=
  variableName (String.ofList ((Text.toUpper tool).toList.map fun c => if c = '-' then '_' else c) ++
    commandEnd)

/-- Whether a variable may hold the command of a tool. -/
def holdsCommand (key : String) : Bool :=
  variableStart.toList.isPrefixOf key.toList && commandEnd.toList.isSuffixOf key.toList

/-! ## The settings file -/

/-- The document of the settings file, empty without a file. -/
def document (d : Disk) : Option Path → Except Fault Value
  | none => .ok (.map [])
  | some p => do
    if !(← d.isFile p) then throw (.settings (.fileNotFound p.toText))
    match Document.read d p with
    | .ok doc =>
      if doc.isNull then return .map []
      else if doc.isMap then return doc
      else throw (.settings (.notMapping p.toText))
    | .error f => throw (if f.isOfValue then .settings (.unreadable f.message) else f)

/-- A part of the document that must be a mapping if it counts as given. -/
def section? (doc : Value) (key : String) : Option Value :=
  let v := (doc.get key).orElse (.map [])
  if v.isMap then some v else none

/-! ## Reading values -/

/-- The integer that a setting stands for. -/
def integer (what : String) (v : Value) : Except Fault Int :=
  let read : Except NumeralError Int := do Numeral.readInt (Text.strip (← v.toText?))
  match v, read with
  | .bool _, _ | _, .error _ => do
    throw (.settings (.integer what (← v.shown?.mapError .numeral)))
  | _, .ok n => .ok n

/-- The number that a setting stands for. -/
def number (what : String) (v : Value) : Except Fault Float :=
  let read : Except NumeralError Float := do Numeral.readFloat (Text.strip (← v.toText?))
  match v, read with
  | .bool _, _ | _, .error _ => do
    throw (.settings (.number what (← v.shown?.mapError .numeral)))
  | _, .ok x => .ok x

/-- The value that decides a setting: what is given explicitly, else what the environment holds,
else what the file says, be it null, else the default. -/
def pick (given : Value) (inEnv : Option String) (file : Option Value) (default : Value) :
    Value :=
  if !given.isNull then given
  else match inEnv with
    | some text => .text text
    | none => file.getD default

/-! ## Tools -/

/-- Sets the settings of a tool. -/
def putTool (name : String) (t : ToolSettings) : List (String × ToolSettings) →
    List (String × ToolSettings)
  | [] => [(name, t)]
  | (n, old) :: rest => if n = name then (n, t) :: rest else (n, old) :: putTool name t rest

/-- Sets the command of a tool and keeps what else is set for it. -/
def putCommand (name : String) (command : Option String) (ts : List (String × ToolSettings)) :
    List (String × ToolSettings) :=
  putTool name { (ts.lookup name).getD .unset with command } ts

/-- What the file says of a tool. -/
def toolOf (raw : Value) (name : String) : Except Fault ToolSettings := do
  let entry := (raw.get name).orElse (.map [])
  if !entry.isMap then throw (.settings (.tool name))
  let text (key : String) : Except Fault (Option String) :=
    if (entry.get key).isTruthy then ((entry.get key).toText?.map some).mapError .numeral
    else .ok none
  let timeout := entry.get "timeout_seconds"
  return {
    command := ← text "command"
    version := ← text "version"
    timeout := ← if timeout.isNull then pure none
      else (integer ("tools." ++ name ++ ".timeout_seconds") timeout).map some }

/-- The names of the tools that the file or the user speaks of, in ascending order. -/
def toolNames (raw : Value) (o : Overrides) : Except Fault (List String) := do
  let inFile ← (raw.entries?.getD []).mapM fun (k, _) => k.toText?.mapError .numeral
  return ((inFile ++ o.toolCommands.map (·.1)).eraseDups).mergeSort fun a b => !Text.before b a

/-- Takes the command that a variable holds for all tools that it belongs to: those for which something is set, and
those that are known. -/
def addVariable (known : List String) (ts : List (String × ToolSettings)) (v : String × String) :
    List (String × ToolSettings) :=
  if holdsCommand v.1 && v.2 != "" then
    (ts.map (·.1) ++ known).foldl (fun ts name =>
      if commandVariable name = v.1 then putCommand name (some v.2) ts else ts) ts
  else ts

/-- What is set for each tool: by the file, then by the variables one after the other, then by the user. -/
def toolsOf (raw : Value) (env : Environment) (o : Overrides) :
    Except Fault (List (String × ToolSettings)) := do
  let inFile ← (← toolNames raw o).mapM fun name => do return (name, ← toolOf raw name)
  let withVariables := env.foldl (addVariable o.knownTools) inFile
  return o.toolCommands.foldl (fun ts (name, command) => putCommand name command ts) withVariables

/-! ## All settings -/

/-- The settings, if each is in its range. -/
def checked (s : Settings) : Except Fault Settings :=
  if s.tolerance < 0 then .error (.settings (.negativeTolerance s.tolerance))
  else if !MatchSettings.admitsDiscount s.coarseDiscount then
    .error (.settings (.coarseDiscount s.coarseDiscount))
  else if s.timeout ≤ 0 then .error (.settings (.timeout s.timeout))
  else if s.threshold < 0 then .error (.settings (.negativeThreshold s.threshold))
  else .ok s

/-- The settings that a document, the environment and the user's own values amount to. -/
def resolve (doc : Value) (env : Environment) (o : Overrides) : Except Fault Settings := do
  let some matching := section? doc "matching" | throw (.settings .sections)
  let some regression := section? doc "regression" | throw (.settings .sections)
  let some raw := section? doc "tools" | throw (.settings .tools)
  let inEnv (name : String) : Option String := env.given? (variableName name)
  let tools ← toolsOf raw env o
  checked {
    tolerance := ← integer "tolerance" (pick o.tolerance (inEnv "TOLERANCE")
      (matching.get? "tolerance") (.int MatchSettings.defaultTolerance))
    coarseDiscount := ← number "coarse_discount" (pick o.coarseDiscount
      (inEnv "COARSE_DISCOUNT") (matching.get? "coarse_discount")
      (.float MatchSettings.defaultDiscount))
    timeout := ← integer "timeout_seconds" (pick o.timeout (inEnv "TIMEOUT")
      (doc.get? "timeout_seconds") (.int defaultTimeout))
    store := Path.ofText (← (pick o.store (inEnv "STORE") (doc.get? "store")
      (.text defaultStore)).toText?.mapError .numeral)
    threshold := ← number "regression threshold" (pick o.threshold
      (inEnv "REGRESSION_THRESHOLD") (regression.get? "threshold") (.float 0))
    tools }

/-- The settings of a run with a settings file, if there is one. -/
def load (d : Disk) (file : Option Path) (env : Environment) (o : Overrides) :
    Except Fault Settings := do
  resolve (← document d file) env o

/-- What is set for a tool. -/
def tool (s : Settings) (name : String) : ToolSettings := (s.tools.lookup name).getD .unset

/-- The command that is set for a tool. -/
def toolCommand (s : Settings) (name : String) : Option String := (s.tool name).command

/-- The seconds that a tool may take. -/
def toolTimeout (s : Settings) (name : String) : Int := (s.tool name).timeout.getD s.timeout

end Settings

end Assay
