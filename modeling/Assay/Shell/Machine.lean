import Assay.Files.Disk

/-!
# Running programs

A program reads its input, writes to two streams, may change files and may take time. It ends with a
status, or it is stopped: by leaving its script, by a signal, or because its time is up. What it did
before it was stopped stays done.
-/

namespace Assay.Shell

/-- What stops a program before its end. -/
inductive Stop where
  /-- The script is left with a status. -/
  | exited (status : Nat)
  | killed (signal : Nat)
  | timedOut
  deriving Repr, DecidableEq

/-- Where a stream goes. -/
inductive Sink where
  | stdout
  | stderr
  /-- To the next command of a pipe. -/
  | pipe
  | file (p : Path)
  /-- Nowhere: what is written is lost. -/
  | discard
  deriving Repr, DecidableEq

/-- The streams of a program. -/
structure Streams where
  input : List UInt8
  out : Sink
  err : Sink
  deriving Repr

/-- Everything that programs change: files, what has been written, the time that has passed. -/
structure Machine where
  disk : Disk
  stdout : List UInt8
  stderr : List UInt8
  piped : List UInt8
  /-- Microseconds since the start. -/
  elapsed : Nat
  /-- Microseconds that may pass. -/
  limit : Option Nat

/-- A program run: it gives a status or is stopped. -/
abbrev Run := ExceptT Stop (StateM Machine)

/-- Adds bytes to where a stream goes. -/
def Machine.write (m : Machine) (sink : Sink) (bytes : List UInt8) : Machine :=
  match sink with
  | .stdout => { m with stdout := m.stdout ++ bytes }
  | .stderr => { m with stderr := m.stderr ++ bytes }
  | .pipe => { m with piped := m.piped ++ bytes }
  | .file p =>
    match m.disk.readBytes p with
    | .ok old => { m with disk := (m.disk.replace p (old ++ bytes)).2 }
    | .error _ => m
  | .discard => m

/-- Writes bytes. -/
def write (sink : Sink) (bytes : List UInt8) : Run Unit := modify fun m => m.write sink bytes

/-- Writes a text. -/
def writeText (sink : Sink) (text : String) : Run Unit := write sink (Utf8.encode text)

/-- Writes a line. -/
def writeLine (sink : Sink) (text : String) : Run Unit := writeText sink (text ++ "\n")

/-- Lets time pass, as far as the limit. -/
def wait (micros : Nat) : Run Unit := do
  let m ← get
  let now := m.elapsed + micros
  set { m with elapsed := now }
  if m.limit.any (· ≤ now) then throw .timedOut

/-- A run whose being stopped is its status, as seen by the script that started it. -/
def contain (r : Run Nat) : Run Nat :=
  tryCatch r fun
    | .exited n => pure n
    | .killed n => pure (128 + n)
    | .timedOut => throw .timedOut

end Assay.Shell
