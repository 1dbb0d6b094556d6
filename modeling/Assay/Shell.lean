import Assay.Shell.Program
import Assay.Shell.Script

/-!
# Running commands

A command is a program and its arguments. Programs are found by their names alone or in the
directories of programs; every other path leads to a file that cannot be run, or nowhere. The shell
runs scripts: their commands one after the other, each with its streams redirected as it says.
-/

namespace Assay.Shell

/-! ## Scripts -/

/-- A path relative to the working directory of a machine, as a file to write to. -/
def openFile (kind : Redirection) (name : String) (m : Machine) : Except Fault Machine :=
  let p := Path.ofText name
  match kind, m.disk.readBytes p with
  | .append, .ok _ => .ok m
  | _, _ =>
    match m.disk.replace p [] with
    | (.ok (), d) => .ok { m with disk := d }
    | (.error f, _) => .error f

/-- What a shell says of a file that cannot be written. -/
def createFault (name : String) : Fault → String
  | .file .isDirectory => "cannot create " ++ name ++ ": Is a directory"
  | _ => "cannot create " ++ name ++ ": Directory nonexistent"

/-- A stream of a command going somewhere else. -/
def Streams.set (s : Streams) (stream : Nat) (sink : Sink) : Streams :=
  if stream = 1 then { s with out := sink }
  else if stream = 2 then { s with err := sink }
  else s

/-- Where a stream goes that is named by its number. -/
def Streams.sinkOf (s : Streams) (number : String) : Sink :=
  if number = "2" then s.err else s.out

/-- What a shell says on its error stream, with the name of its script. -/
def complain (args : List String) (s : Streams) (text : String) : Run Unit :=
  writeLine s.err (args.head?.getD "sh" ++ ": 1: " ++ text)

/-- The file that holds nothing and keeps nothing. -/
def emptyFile : String := "/dev/null"

/-- The streams of a command after its redirections, if all files can be opened. -/
def redirect (args : List String) (s : Streams) :
    List (Nat × Redirection × String) → Run (Option Streams)
  | [] => pure (some s)
  | (stream, .same, number) :: rest => redirect args (s.set stream (s.sinkOf number)) rest
  | (_, .input, name) :: rest => do
    if name = emptyFile then redirect args { s with input := [] } rest
    else match (← get).disk.readBytes (Path.ofText name) with
    | .ok bytes => redirect args { s with input := bytes } rest
    | .error _ =>
      complain args s ("cannot open " ++ name ++ ": No such file")
      return none
  | (stream, kind, name) :: rest => do
    if name = emptyFile then redirect args (s.set stream .discard) rest
    else match openFile kind name (← get) with
    | .ok m =>
      set m
      redirect args (s.set stream (.file (Path.ofText name))) rest
    | .error f =>
      complain args s (createFault name f)
      return none

/-- The number of a signal given by name or number. -/
def signalOf (text : String) : Option Nat :=
  let name := if text.startsWith "SIG" then (text.drop 3).toString else text
  if name = "HUP" then some 1
  else if name = "INT" then some 2
  else if name = "QUIT" then some 3
  else if name = "ABRT" then some 6
  else if name = "KILL" then some 9
  else if name = "SEGV" then some 11
  else if name = "PIPE" then some 13
  else if name = "ALRM" then some 14
  else if name = "TERM" then some 15
  else text.toNat?

/-- Signals that end nothing. -/
def isHarmless (signal : Nat) : Bool := signal == 0 || signal == 17 || signal == 18 ||
  signal == 23 || signal == 28

/-- Sends a signal; only the running process can be reached. -/
def kill (args : List String) : Run Nat := do
  let (signal, targets) := match args with
    | "-s" :: name :: rest => (signalOf name, rest)
    | first :: rest =>
      if first.startsWith "-" then (signalOf (first.drop 1).toString, rest)
      else (some 15, first :: rest)
    | [] => (some 15, [])
  match signal with
  | some n =>
    if targets.contains Reading.processNumber then
      if isHarmless n then return 0 else throw (.killed n)
    else return 1
  | none => return 1

/-- The program of a name, the shell apart. -/
def program? (name : String) : Option Program := programs.lookup name

/-- Runs a program by name; a shell runs as `shell`. -/
def external (shell : Program) (args : List String) (name : String) (rest : List String)
    (s : Streams) : Run Nat :=
  if name = "sh" then shell rest s
  else match program? name with
    | some p => p rest s
    | none => do
      complain args s (name ++ ": not found")
      return 127

/-- Runs one command of a script: a word of the shell's own, or a program. -/
def runWords (shell : Program) (args : List String) (status : Nat) (s : Streams) :
    List String → Run Nat
  | [] => pure 0
  | name :: rest =>
    if name = "exit" then
      throw (.exited (match rest with | [] => status | n :: _ => (n.toNat?.getD 2) % 256))
    else if name = "exec" then
      match rest with
      | [] => pure 0
      | name :: rest => do throw (.exited (← external shell args name rest s))
    else if name = "kill" then kill rest
    else if name = "echo" then echoEscaped rest s
    else if name = ":" then pure 0
    else if name = "sh" then contain (shell rest s)
    else external shell args name rest s

/-- Runs one command with its redirections. -/
def runCommand (shell : Program) (args : List String) (status : Nat) (s : Streams) (c : Command) :
    Run Nat := do
  match ← redirect args s c.redirections with
  | some s => runWords shell args status s c.words
  | none => return 2

/-- Whether a command runs after one that ended with a status. -/
def Joint.admits (j : Joint) (skipped : Bool) (status : Nat) : Bool :=
  match j with
  | .always => true
  | .ifOk => status == 0
  | .ifFailed => status != 0
  | .piped => !skipped

/-- Runs commands in order. A command of a pipe reads what the one before it wrote, and leaving the
script ends only that command. -/
def runCommands (shell : Program) (args : List String) (s : Streams) (skipped : Bool)
    (status : Nat) : List Command → Run Nat
  | [] => pure status
  | c :: rest => do
    if !c.joint.admits skipped status then
      runCommands shell args s true status rest
    else
      let feeds := rest.head?.any (·.joint == .piped)
      let fed := c.joint == .piped
      let m ← get
      set { m with piped := [] }
      let own : Streams := { s with
        input := if fed then m.piped else s.input
        out := if feeds then .pipe else s.out }
      let run := runCommand shell args status own c
      let status ← if feeds || fed then
          tryCatch run fun
            | .exited n => pure n
            | stop => throw stop
        else run
      runCommands shell args s false status rest

/-- Runs a script with arguments, the first of which is its name. -/
def runScript (shell : Program) (args : List String) (script : String) (s : Streams) :
    Run Nat := do
  match commands? args script with
  | some cs => runCommands shell args s false 0 cs
  | none =>
    complain args s "Syntax error: Unterminated quoted string"
    return 2

/-- Runs the shell: a script in its arguments, in a file, or on its input. -/
def runShell (shell : Program) : Program := fun args s => do
  match args with
  | ["-c"] =>
    writeLine s.err "sh: 0: -c requires an argument"
    return 2
  | "-c" :: script :: rest => runScript shell (if rest.isEmpty then ["sh"] else rest) script s
  | name :: rest =>
    match (← get).disk.readBytes (Path.ofText name) with
    | .ok bytes => runScript shell (name :: rest) (Utf8.decodeLossy bytes) s
    | .error _ =>
      writeLine s.err ("sh: 0: cannot open " ++ name ++ ": No such file")
      return 2
  | [] => runScript shell ["sh"] (Utf8.decodeLossy s.input) s

/-- How deep shells may start shells. -/
def maxDepth : Nat := 64

/-- The shell that may start shells `depth` levels deep. -/
def shellOf : Nat → Program
  | 0 => fun _ _ => throw .timedOut
  | depth + 1 => fun args s => do
    tryCatch (runShell (shellOf depth) args s) fun
      | .exited n => pure n
      | stop => throw stop

/-! ## Commands -/

/-- Why a command cannot be started. -/
inductive StartFault where
  | notFound
  | denied
  | notDirectory
  | nameTooLong
  deriving Repr, DecidableEq

/-- The fault in words, with its number and the name that was given. -/
def StartFault.message (name : String) (f : StartFault) : String :=
  let text := match f with
    | .notFound => "[Errno 2] No such file or directory"
    | .denied => "[Errno 13] Permission denied"
    | .notDirectory => "[Errno 20] Not a directory"
    | .nameTooLong => "[Errno 36] File name too long"
  text ++ ": " ++ Text.quoted name

/-- The fault of a path that leads nowhere. -/
def StartFault.ofFile : FileFault → StartFault
  | .notDirectory => .notDirectory
  | .nameTooLong => .nameTooLong
  | _ => .notFound

/-- The shell and the programs. -/
def known (name : String) : Option Program :=
  if name = "sh" then some (shellOf maxDepth) else program? name

/-- The program that the first word of a command names. -/
def resolve (d : Disk) (name : String) : Except StartFault Program :=
  let p := Path.ofText name
  if !name.toList.contains '/' then
    match known name with
    | some program => .ok program
    | none =>
      if name = "" then .error .denied
      else if Disk.maxName < Disk.width name then .error .nameTooLong
      else .error .notFound
  else
    let installed := match p.root, p.names with
      | "/", ["bin", base] => known base
      | "/", ["usr", "bin", base] => known base
      | _, _ => none
    match installed, d.find p with
    | some program, _ => .ok program
    | none, .ok _ => .error .denied
    | none, .error f => .error (.ofFile f)

/-- How a command ended. -/
inductive Ending where
  | exited (status : Nat)
  | killed (signal : Nat)
  | timedOut
  deriving Repr, DecidableEq

/-- How a command ended and what it wrote. -/
structure Outcome where
  ending : Ending
  stdout : List UInt8
  stderr : List UInt8
  deriving Repr, DecidableEq

/-- Runs a program on a disk with a limit of time. -/
def execute (program : Program) (args : List String) (limit : Option Nat) (d : Disk) :
    Outcome × Disk :=
  let (r, m) := (program args ⟨[], .stdout, .stderr⟩).run ⟨d, [], [], [], 0, limit⟩
  let ending := match r with
    | .ok n => .exited n
    | .error (.exited n) => .exited n
    | .error (.killed n) => .killed n
    | .error .timedOut => .timedOut
  (⟨ending, m.stdout, m.stderr⟩, m.disk)

end Assay.Shell
