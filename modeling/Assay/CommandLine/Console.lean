import Assay.Files.Disk
import Assay.Number.Shortest
import Assay.Value.Convert

/-!
# Console

A command may change files, may fail, and prints lines while it goes on; what it has printed before
it fails stays printed. The lines that several commands print are laid out here.
-/

namespace Assay.CommandLine

/-- An operation on files that prints lines. -/
abbrev Console := ExceptT Fault (StateT (List String) (StateM Disk))

namespace Console

/-- An operation that prints nothing. -/
def ofDisk (x : OnDisk α) : Console α := do
  let (r, d) := x.run (← getThe Disk)
  set d
  match r with
  | .ok a => return a
  | .error f => throw f

/-- An operation that only looks at files. -/
def look (f : Disk → Except Fault α) : Console α := ofDisk (OnDisk.look f)

/-- Prints a line. -/
def say (line : String) : Console Unit := modifyThe (List String) (· ++ [line])

/-- Prints lines. -/
def sayAll (lines : List String) : Console Unit := modifyThe (List String) (· ++ lines)

end Console

/-- A text filled up with blanks behind it. -/
def padRight (width : Nat) (s : String) : String :=
  s ++ String.ofList (List.replicate (width - Text.size s.toList) ' ')

/-- A text filled up with blanks in front of it. -/
def padLeft (width : Nat) (s : String) : String :=
  String.ofList (List.replicate (width - Text.size s.toList) ' ') ++ s

/-- The parts of a text between commas. -/
def commaParts (part : List Char) : List Char → List (List Char)
  | [] => [part.reverse]
  | ',' :: rest => part.reverse :: commaParts [] rest
  | c :: rest => commaParts (c :: part) rest

/-- The names in a list with commas; empty ones count for nothing. -/
def namesOf (text : String) : List String :=
  (((commaParts [] text.toList).map Text.trim).filter (!·.isEmpty)).map String.ofList

/-- A metric as a line shows it: a ratio with four places, a count as it is. -/
def metricText : Value → String
  | .null => "n/a"
  | .float x => Binary64.toFixed 4 x
  | v => v.toText

/-- The line on the overall metrics of a tool. -/
def overallLine (tool : String) (metrics : Value) : Except Fault String := do
  let o ← (metrics.get "overall").fieldsOrEmpty
  let count (name : String) : String :=
    " " ++ name ++ "=" ++ ((o.get? name).getD (.int 0)).toText
  let ratio (name : String) : String := " " ++ name ++ "=" ++ metricText (o.get name)
  return tool ++ ":" ++ count "tp" ++ count "fp" ++ count "fn" ++ count "unclassified" ++
    ratio "precision" ++ ratio "recall" ++ ratio "f1"

/-- How a command ends. -/
inductive ExitStatus where
  | ok
  | usage
  | corpus
  | toolFailed
  | regression
  deriving Repr, DecidableEq

/-- The number of an ending. -/
def ExitStatus.code : ExitStatus → Nat
  | .ok => 0
  | .usage => 1
  | .corpus => 2
  | .toolFailed => 3
  | .regression => 4

end Assay.CommandLine
