import Assay.Text.Alphanumeric
import Assay.Text.Line
import Assay.Tool.Record

/-!
# Compiler diagnostics

Compilers and their relatives print one diagnostic a line: `path:line:column: level: message [rule]`.
The column may be missing, and line and column together where a diagnostic is about a whole file.
Around the diagnostics stand lines that are none: chains of includes, the names of functions, echoes
of the source, notes and counts. These are known by their form and dropped; any other line should be
a diagnostic.
-/

namespace Assay.Compiler

open ToolRecord

/-- What the levels mean. -/
def severities : List (String × Severity) :=
  [("fatal error", .high), ("error", .high), ("warning", .medium), ("remark", .low)]

/-! ## Pieces of a line -/

/-- The rest of a text after a word. -/
def after? (word : String) (cs : List Char) : Option (List Char) :=
  if word.toList.isPrefixOf cs then some (cs.drop word.length) else none

/-- The first of some words that a text starts with, and the rest. -/
def oneOf? (words : List String) (cs : List Char) : Option (String × List Char) :=
  words.findSome? fun w => (after? w cs).map fun rest => (w, rest)

/-- Whether a text starts with one of some words. -/
def startsWithOne (words : List String) (cs : List Char) : Bool := (oneOf? words cs).isSome

/-- The rest after blanks. -/
def skipBlanks (cs : List Char) : List Char := cs.dropWhile Text.isBlank

/-- The rest after at least one blank. -/
def afterBlanks? (cs : List Char) : Option (List Char) :=
  if cs.head?.any Text.isBlank then some (skipBlanks cs) else none

/-- The digits that a text starts with, of which there must be one, and the rest. -/
def digits? (cs : List Char) : Option (List Char × List Char) :=
  let (ds, rest) := cs.span Text.isDecimal
  if ds.isEmpty then none else some (ds, rest)

/-- Digits and the colon after them. -/
def position? (cs : List Char) : Option (List Char × List Char) := do
  let (ds, rest) ← digits? cs
  return (ds, ← after? ":" rest)

/-- A character of a path: no colon and no line end. -/
def isPathChar (c : Char) : Bool := c != ':' && c != '\n'

/-- The text up to a colon, and the rest after the colon. -/
def plainPath? (cs : List Char) : Option (List Char × List Char) :=
  let (path, rest) := cs.span isPathChar
  if path.isEmpty then none else (after? ":" rest).map fun rest => (path, rest)

/-- A path that starts with a drive, and the rest after its colon. -/
def drivePath? : List Char → Option (List Char × List Char)
  | d :: ':' :: rest =>
    if d.isAlpha then (plainPath? rest).map fun (path, rest) => (d :: ':' :: path, rest) else none
  | _ => none

/-- The ways to read a path and its colon at the start of a text: with a drive first. -/
def paths (cs : List Char) : List (List Char × List Char) :=
  (drivePath? cs).toList ++ (plainPath? cs).toList

/-- Whether no word goes on at the start of a text; the character before it is part of a word. -/
def endsWord (cs : List Char) : Bool := !cs.head?.any Text.isWordChar

/-- Whether nothing is left of a line but a line end. -/
def isAtEnd (cs : List Char) : Bool := cs == [] || cs == ['\n']

/-! ## Lines that are no diagnostics -/

/-- What a header may name. -/
def scopes : List String :=
  ["function", "member function", "static member function", "constructor", "destructor",
   "instantiation", "top level", "global scope"]

/-- Whether a text starts with one of some words, and the word ends there. -/
def isWholeWord (words : List String) (cs : List Char) : Bool :=
  words.any fun w => (after? w cs).any endsWord

/-- `path: In function` and its relatives. -/
def isHeader (cs : List Char) : Bool :=
  ((plainPath? cs).bind fun (_, rest) => oneOf? [" In ", " At "] rest).any fun (_, rest) =>
    isWholeWord scopes rest

/-- The rest after a path, a line and a column if there is one. -/
def afterPosition? (cs : List Char) : Option (List Char) := do
  let (_, rest) ← plainPath? cs
  let (_, rest) ← position? rest
  return ((position? rest).map (·.2)).getD rest

/-- `path:1: required from` and its relatives. -/
def isChain (cs : List Char) : Bool :=
  ((afterPosition? cs).bind afterBlanks?).any fun rest =>
    (oneOf? ["required ", "in "] rest).any fun (_, rest) =>
      isWholeWord ["from", "expansion"] rest

/-- `path:1: note:` -/
def isNote (cs : List Char) : Bool :=
  (afterPosition? cs).any fun rest => (after? "note:" (skipBlanks rest)).isSome

/-- The rest after a count of warnings or errors. -/
def afterCount? (cs : List Char) : Option (List Char) := do
  let (_, rest) ← digits? cs
  let (_, rest) ← oneOf? [" warning", " error"] rest
  return (after? "s" rest).getD rest

/-- Whether a text is a word with or without a full stop. -/
def isSentence (word : String) (cs : List Char) : Bool :=
  (after? word cs).any fun rest => isAtEnd ((after? "." rest).getD rest)

/-- `2 warnings and 1 error generated.` -/
def isSummary (cs : List Char) : Bool :=
  (afterCount? cs).any fun rest =>
    isSentence " generated" (((after? " and " rest).bind afterCount?).getD rest)

/-- `Suppressed 12 warnings` -/
def isSuppression (cs : List Char) : Bool :=
  ((after? "Suppressed " cs).bind digits?).any fun (_, rest) => (after? " warning" rest).isSome

/-- A line that only marks a place in the line above it. -/
def isMarker (cs : List Char) : Bool :=
  let rest := cs.dropWhile fun c => c == '~' || c == '^' || c == ' '
  rest.length < cs.length && isAtEnd rest

/-- The starts of other lines that are no diagnostics. -/
def noiseStarts : List String :=
  ["In file included from ", "Use -header-filter=", "Error while processing ",
   "Running without flags provided", "Found compiler error"]

/-- Programs that speak about themselves. -/
def programs : List String :=
  ["cc1:", "cc1plus:", "gcc:", "g++:", "clang:", "clang++:", "clang-tidy:", "ld:", "collect2:"]

/-- Whether a line is no diagnostic. -/
def isNoise (cs : List Char) : Bool :=
  cs.head?.any Text.isBlank || startsWithOne noiseStarts cs || isHeader cs || isChain cs ||
    isNote cs || isSummary cs || isSentence "compilation terminated" cs || isSuppression cs ||
    isMarker cs || startsWithOne programs cs

/-- The lines of the output that should be diagnostics, without blanks at their ends. -/
def split (raw : String) : List ToolRecord :=
  ((Text.lines raw.toList).filter fun l => !Text.isAllBlank l && !isNoise l).map fun l =>
    .value (.text (String.ofList (Text.trimEnd l)))

/-! ## Diagnostics -/

/-- A diagnostic in its parts. -/
structure Diagnostic where
  file : List Char
  line : Option (List Char)
  column : Option (List Char)
  level : String
  message : List Char
  rule : Option (List Char)
  deriving Repr, DecidableEq

/-- A rule in brackets after blanks, with nothing but blanks after it. -/
def ruleEnd? (cs : List Char) : Option (List Char) := do
  let inside ← after? "[" (← afterBlanks? cs)
  let (rule, rest) := inside.span fun c => c != '[' && c != ']'
  let rest ← after? "]" rest
  if !rule.isEmpty && Text.isAllBlank rest then some rule else none

/-- The message and the rule of a text, of which `read` has been read in reverse: the message is as
short as what follows it allows. A message has no line end. -/
def messageFrom? (read : List Char) (cs : List Char) : Option (List Char × Option (List Char)) :=
  match ruleEnd? cs with
  | some rule => some (read.reverse, some rule)
  | none =>
    if Text.isAllBlank cs then some (read.reverse, none)
    else match cs with
      | [] => none
      | c :: rest => if c = '\n' then none else messageFrom? (c :: read) rest

/-- The first way to read message and rule when 0 to `n` blanks are left to the message. -/
def messageAfter? (blanks cs : List Char) : Nat → Option (List Char × Option (List Char))
  | 0 => messageFrom? [] (blanks ++ cs)
  | n + 1 =>
    match messageFrom? [] (blanks.drop (n + 1) ++ cs) with
    | some m => some m
    | none => messageAfter? blanks cs n

/-- Message and rule of the text after a level. -/
def message? (cs : List Char) : Option (List Char × Option (List Char)) :=
  let (blanks, rest) := cs.span Text.isBlank
  messageAfter? blanks rest blanks.length

/-- The level at the start of a text, and the rest after its colon. -/
def level? (levels : List String) (cs : List Char) : Option (String × List Char) :=
  levels.findSome? fun l => ((after? l cs).bind (after? ":")).map fun rest => (l, rest)

/-- Reads a diagnostic from after its path. -/
def tail? (levels : List String) (file : List Char) (line column : Option (List Char))
    (cs : List Char) : Option Diagnostic := do
  let (level, rest) ← level? levels (skipBlanks cs)
  let (message, rule) ← message? rest
  return ⟨file, line, column, level, message, rule⟩

/-- Reads a diagnostic about a line, given its path and what follows. -/
def atLine? (file rest : List Char) : Option Diagnostic := do
  let levels := ["fatal error", "error", "warning", "remark"]
  let (line, rest) ← position? rest
  match position? rest with
  | some (column, rest) => tail? levels file (some line) (some column) rest
  | none => tail? levels file (some line) none rest

/-- Reads a diagnostic about a file, given its path and what follows. -/
def atFile? (file rest : List Char) : Option Diagnostic :=
  tail? ["fatal error", "error", "warning"] file none none rest

/-- Reads a line as a diagnostic: about a line of a file if it can be. -/
def diagnostic? (cs : List Char) : Option Diagnostic :=
  match (paths cs).findSome? fun (file, rest) => atLine? file rest with
  | some d => some d
  | none => (paths cs).findSome? fun (file, rest) => atFile? file rest

/-- The rule of a diagnostic. Of several rules the first counts, and an error made of a warning is
that warning; a diagnostic without rules is named by its level. -/
def ruleIdOf (rule : Option (List Char)) (level : String) : String :=
  match rule with
  | none => String.ofList (level.toList.map fun c => if c = ' ' then '-' else c)
  | some cs =>
    let first := Text.trim (cs.takeWhile (· != ','))
    match after? "-Werror=" first with
    | some rest => "-W" ++ String.ofList rest
    | none => String.ofList first

/-- The number of some digits. -/
def number? (ds : Option (List Char)) : Option Int :=
  ds.bind fun ds => intOf? (.text (String.ofList ds))

/-- The finding of a diagnostic. -/
def Diagnostic.toFinding (run : ToolRun) (d : Diagnostic) : ToolFinding :=
  { tool := run.tool
    toolVersion := run.version
    ruleId := ruleIdOf d.rule d.level
    file := String.ofList (Text.trim d.file)
    line := number? d.line
    column := number? d.column
    message := String.ofList (Text.trim d.message)
    nativeSeverity := some d.level }

/-- Reads a record. -/
def parse (run : ToolRun) : Value → Except Fault ToolFinding
  | .text s =>
    match diagnostic? s.toList with
    | some d => .ok (d.toFinding run)
    | none => refuse "line is not a compiler diagnostic" (shorten s)
  | v => refuse "compiler diagnostic record is not a text line" (previewValue v)

end Assay.Compiler
