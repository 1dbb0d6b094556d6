import Assay.CommandLine.Grammar

/-!
# Reading a command line

Options and the argument of a command may stand in any order. Each option takes effect when it is
met, so the first fault from the left is the one that is reported; what is missing is looked for
last, and what is left over is given back.
-/

namespace Assay.CommandLine

/-- What has been read of a command line. -/
structure Found where
  /-- Options with their values, the latest first. -/
  options : List (String × Value)
  /-- The argument, or the name of the command and the words after it. -/
  argument : Option (String × List String)
  /-- Words that nothing takes. -/
  extras : List String
  deriving Inhabited

namespace Found

/-- Nothing read yet. -/
def empty : Found := ⟨[], none, []⟩

/-- Adds a word that nothing takes. -/
def leave (r : Found) (text : String) : Found := { r with extras := r.extras ++ [text] }

/-- The name under which an option is kept: its last one. -/
def keyOf (f : Flag) : String := f.names.getLast?.getD ""

/-- Whether an option was given. -/
def has (r : Found) (name : String) : Bool := (r.options.lookup name).isSome

/-- The value of an option; null if it was not given. -/
def get (r : Found) (name : String) : Value := (r.options.lookup name).getD .null

/-- The text of an option, if it was given. -/
def text? (r : Found) (name : String) : Option String :=
  match r.get name with
  | .text s => some s
  | _ => none

end Found

/-- The value that a text is for an option. -/
def valueOf (g : Grammar) (f : Flag) (text : String) : Except Halt Value :=
  match f.action with
  | .integer =>
    match Numeral.readInt text with
    | .ok n => .ok (.int n)
    | .error _ => g.refuseFlag f ("invalid int value: " ++ Text.quoted text)
  | .number =>
    match Numeral.readFloat text with
    | .ok x => .ok (.float x)
    | .error _ => g.refuseFlag f ("invalid float value: " ++ Text.quoted text)
  | _ => .ok (.text text)

/-- Takes an option with its value. -/
def takeValue (g : Grammar) (f : Flag) (text : String) (r : Found) : Except Halt Found := do
  let v ← valueOf g f text
  return { r with options := (Found.keyOf f, v) :: r.options }

/-- Takes an option without a value. -/
def takeFlag (g : Grammar) (f : Flag) (r : Found) : Except Halt Found :=
  match f.action with
  | .help => .error (.help g.program)
  | .version => .error .version
  | _ => .ok { r with options := (Found.keyOf f, .bool true) :: r.options }

/-- Takes options without values, in order. -/
def takeFlags (g : Grammar) (r : Found) : List Flag → Except Halt Found
  | [] => .ok r
  | f :: rest => do takeFlags g (← takeFlag g f r) rest

/-- Takes an option that has text after its name in the same word. Letters after an option of one
letter are options of one letter themselves; those that were met before are in `before`. -/
def takeCluster (g : Grammar) (r : Found) (before : List Flag) (name : String) (f : Flag)
    (equals : Bool) : List Char → Except Halt Found
  | [] =>
    if f.action.takesValue then takeValue g f "" r
    else g.refuseFlag f ("ignored explicit argument " ++ Text.quoted "")
  | c :: rest =>
    if f.action.takesValue then do
      takeValue g f (String.ofList (c :: rest)) (← takeFlags g r before)
    else if (name.toList.take 2 == ['-', '-']) || equals || c == '-' then
      g.refuseFlag f ("ignored explicit argument " ++ Text.quoted (String.ofList (c :: rest)))
    else
      let before := before ++ [f]
      let next := String.ofList ['-', c]
      match g.flag? next, rest with
      | none, _ => do return (← takeFlags g r before).leave (String.ofList ('-' :: c :: rest))
      | some f, [] =>
        if f.action.takesValue then g.refuseFlag f "expected one argument"
        else takeFlags g r (before ++ [f])
      | some f, c' :: rest' =>
        if c' = '=' then
          -- The value after the sign is looked at once more, as that of the last letter.
          if f.action.takesValue then do
            takeValue g f (String.ofList rest') (← takeFlags g r before)
          else g.refuseFlag f ("ignored explicit argument " ++ Text.quoted (String.ofList rest'))
        else takeCluster g r before next f false rest

/-- Takes the argument of a command. -/
def takeArgument (g : Grammar) (p : Positional) (text : String) (rest : List String) (r : Found) :
    Except Halt Found :=
  match p with
  | .one _ => .ok { r with argument := some (text, []) }
  | .command label choices =>
    if choices.contains text then .ok { r with argument := some (text, rest) }
    else g.refuse ("argument " ++ label ++ ": invalid choice: " ++ Text.quoted text ++
      " (choose from " ++ ", ".intercalate (choices.map Text.quoted) ++ ")")

/-- The argument that a command still waits for. -/
def awaited (g : Grammar) (r : Found) : Option Positional :=
  if r.argument.isSome then none else g.positional

/-- Reads words by their classes. -/
def read (g : Grammar) (r : Found) : List Part → Except Halt Found
  | [] => .ok r
  | .option m :: rest =>
    match m.known, m.value with
    | none, _ => read g (r.leave m.text) rest
    | some (name, f), some (equals, value) => do
      read g (← takeCluster g r [] name f equals value) rest
    | some (_, f), none =>
      if f.action.takesValue then
        match rest with
        | .word value :: rest => do read g (← takeValue g f value r) rest
        | _ => g.refuseFlag f "expected one argument"
      else do read g (← takeFlag g f r) rest
  | .word text :: rest =>
    match awaited g r with
    | none => read g (r.leave text) rest
    | some (.command label choices) =>
      takeArgument g (.command label choices) text (rest.map Part.text) r
    | some p => do
      let r ← takeArgument g p text [] r
      match rest with
      | .dashes :: rest => read g r rest
      | rest => read g r rest
  | .dashes :: rest =>
    match awaited g r, rest with
    | some (.command label choices), _ :: _ =>
      takeArgument g (.command label choices) "--" (rest.map Part.text) r
    | some p, .word text :: rest => do read g (← takeArgument g p text [] r) rest
    | _, rest => read g (r.leave "--") rest

/-- What must be given and was not. -/
def missing (g : Grammar) (r : Found) : List String :=
  ((awaited g r).map Positional.label).toList ++
    (g.flags.filter fun f => f.required && !r.has (Found.keyOf f)).map Flag.label

/-- Reads a command line. What nothing takes is left in the result. -/
def readAll (g : Grammar) (words : List String) : Except Halt Found := do
  let r ← read g .empty (← g.parts words)
  match missing g r with
  | [] => return r
  | names => g.refuse ("the following arguments are required: " ++ ", ".intercalate names)

end Assay.CommandLine
