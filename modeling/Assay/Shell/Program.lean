import Assay.Number.Numeral
import Assay.Number.Power
import Assay.Shell.Machine

/-!
# Programs

The programs that commands may name: writing words, joining and copying files, waiting. Each gives
status zero unless something went wrong, and says on its error stream what did.
-/

namespace Assay.Shell

/-- A program, given its arguments and its streams. -/
abbrev Program := List String → Streams → Run Nat

/-! ## Writing words -/

/-- The character that a letter after a backslash stands for. -/
def escapeOf (c : Char) : Option Char :=
  if c = 'n' then some '\n'
  else if c = 't' then some '\t'
  else if c = 'r' then some '\r'
  else if c = 'a' then some '\x07'
  else if c = 'b' then some '\x08'
  else if c = 'f' then some '\x0c'
  else if c = 'v' then some '\x0b'
  else if c = '\\' then some '\\'
  else none

/-- A text with its escapes resolved, and whether it ends the output. -/
def unescape : List Char → List Char × Bool
  | [] => ([], false)
  | ['\\'] => (['\\'], false)
  | '\\' :: c :: rest =>
    if c = 'c' then ([], true)
    else
      let (text, ends) := unescape rest
      match escapeOf c with
      | some e => (e :: text, ends)
      | none => ('\\' :: c :: text, ends)
  | c :: rest =>
    let (text, ends) := unescape rest
    (c :: text, ends)

/-- Words and whether a line end follows them. -/
def dropNoNewline : List String → List String × Bool
  | "-n" :: rest => (rest, false)
  | words => (words, true)

/-- Whether a word is made of the letters of options to the writer of words. -/
def isEchoOption (word : String) : Bool :=
  match word.toList with
  | '-' :: c :: rest => (c :: rest).all fun l => l == 'n' || l == 'e' || l == 'E'
  | _ => false

/-- Writes its arguments, as they are unless an option asks for their escapes. -/
def echo : Program := fun args s => do
  let options := String.join (args.takeWhile isEchoOption)
  let text := " ".intercalate (args.dropWhile isEchoOption)
  let newline := !options.toList.contains 'n'
  if (options.toList.filter fun l => l == 'e' || l == 'E').getLast? = some 'e' then
    let (text, ends) := unescape text.toList
    writeText s.out (String.ofList text ++ if newline && !ends then "\n" else "")
  else writeText s.out (text ++ if newline then "\n" else "")
  return 0

/-- Writes its arguments with their escapes resolved. -/
def echoEscaped : Program := fun args s => do
  let (words, newline) := dropNoNewline args
  let (text, ends) := unescape (" ".intercalate words).toList
  writeText s.out (String.ofList text ++ if newline && !ends then "\n" else "")
  return 0

/-- A format with its escapes resolved and its places filled, and the arguments that are left. -/
def fill : List Char → List String → List Char × List String
  | [], args => ([], args)
  | '\\' :: c :: rest, args =>
    let (text, left) := fill rest args
    match escapeOf c with
    | some e => (e :: text, left)
    | none => (if c = '"' ∨ c = '\'' then (c :: text, left) else ('\\' :: c :: text, left))
  | '%' :: '%' :: rest, args =>
    let (text, left) := fill rest args
    ('%' :: text, left)
  | '%' :: c :: rest, args =>
    let (text, left) := fill rest (args.drop 1)
    let value := (args.head?.getD "").toList
    let value := if c = 'b' then (unescape value).1
      else if c = 'd' ∧ value.isEmpty then ['0'] else value
    (value ++ text, left)
  | c :: rest, args =>
    let (text, left) := fill rest args
    (c :: text, left)

/-- A format filled again and again until no argument is left, at most `fuel` times. -/
def fillAll (format : List Char) : Nat → List String → List Char
  | 0, _ => []
  | fuel + 1, args =>
    let (text, left) := fill format args
    if left.isEmpty || left.length = args.length then text else text ++ fillAll format fuel left

/-- Writes arguments in a format. -/
def printf : Program := fun args s => do
  match args with
  | [] => return 2
  | format :: values =>
    writeText s.out (String.ofList (fillAll format.toList (values.length + 1) values))
    return 0

/-! ## Files -/

/-- What stands in the way of reading a file. -/
def reasonOf : Fault → String
  | .file .isDirectory => "Is a directory"
  | .file .notDirectory => "Not a directory"
  | .file .nameTooLong => "File name too long"
  | _ => "No such file or directory"

/-- Writes a file, or its input if the name is a dash. -/
def catOne (s : Streams) (name : String) : Run Nat := do
  if name = "-" then
    write s.out s.input
    return 0
  match (← get).disk.readBytes (Path.ofText name) with
  | .ok bytes =>
    write s.out bytes
    return 0
  | .error f =>
    writeLine s.err ("cat: " ++ name ++ ": " ++ reasonOf f)
    return 1

/-- Writes files one after the other. -/
def cat : Program := fun args s => do
  let names := if args.isEmpty then ["-"] else args
  let statuses ← names.mapM (catOne s)
  return statuses.foldl max 0

/-- Copies a file to a place, which is a directory or the name of the copy. -/
def copyTo (s : Streams) (target name : String) : Run Nat := do
  let d := (← get).disk
  let source := Path.ofText name
  let destination := Path.ofText target
  match d.readBytes source with
  | .error (.file .isDirectory) =>
    writeLine s.err ("cp: -r not specified; omitting directory '" ++ name ++ "'")
    return 1
  | .error f =>
    writeLine s.err ("cp: cannot stat '" ++ name ++ "': " ++ reasonOf f)
    return 1
  | .ok bytes =>
    let place := match d.find destination with
      | .ok (.dir _) => destination.child source.name
      | _ => destination
    match d.replace place bytes with
    | (.ok (), d) =>
      modify fun m => { m with disk := d }
      return 0
    | (.error f, _) =>
      writeLine s.err ("cp: cannot create regular file '" ++ target ++ "': " ++ reasonOf f)
      return 1

/-- Copies files. -/
def cp : Program := fun args s => do
  match args.getLast? with
  | some target =>
    let statuses ← args.dropLast.mapM (copyTo s target)
    return if statuses.isEmpty then 1 else statuses.foldl max 0
  | none => return 1

/-! ## Time -/

/-- The microseconds of a unit of time. -/
def unitOf (c : Char) : Option Nat :=
  if c = 's' then some 1000000
  else if c = 'm' then some 60000000
  else if c = 'h' then some 3600000000
  else if c = 'd' then some 86400000000
  else none

/-- The microseconds that a text stands for. -/
def microsOf (text : String) : Option Nat :=
  let cs := text.toList
  let (digits, unit) := match cs.getLast?.bind unitOf with
    | some u => (cs.dropLast, u)
    | none => (cs, 1000000)
  (Numeral.readDigits? digits).map fun (n, e) =>
    if e < 0 then n * unit / tenTo (-e).toNat else n * unit * tenTo e.toNat

/-- Waits for all of its arguments. -/
def sleep : Program := fun args s => do
  match args.mapM microsOf with
  | some times =>
    wait (times.foldl (· + ·) 0)
    return 0
  | none =>
    writeLine s.err "sleep: invalid time interval"
    return 1

/-! ## Telling a version -/

/-- The version of the compiler that is installed. -/
def compilerVersion : String := "12.2.0"

/-- A compiler that is asked for its version; it compiles nothing. -/
def compiler : Program := fun args s => do
  match args with
  | ["-dumpfullversion"] =>
    writeLine s.out compilerVersion
    return 0
  | ["-dumpversion"] =>
    writeLine s.out (String.ofList (compilerVersion.toList.takeWhile (· != '.')))
    return 0
  | _ =>
    writeLine s.err "gcc: fatal error: no input files"
    writeLine s.err "compilation terminated."
    return 1

/-! ## By name -/

/-- The programs by name. -/
def programs : List (String × Program) := [
  ("cat", cat), ("cp", cp), ("echo", echo), ("gcc", compiler), ("printf", printf), ("sleep", sleep),
  ("true", fun _ _ => pure 0), ("false", fun _ _ => pure 1)]

end Assay.Shell
