import Assay.Tool.Compiler
import Assay.Tool.Cppcheck
import Assay.Tool.JsonLines
import Assay.Tool.Sarif
import Assay.Tool.Semgrep

/-!
# Output formats

A format says how the output of a tool is cut into records, how a record is read, which words for
severities it knows, and where the version of the tool stands. The format of an output is never
guessed: it is that of the tool.
-/

namespace Assay

/-- A format of tool output. -/
inductive Format where
  | sarif
  | semgrep
  | cppcheck
  | compiler
  | jsonLines
  deriving Repr, DecidableEq, Inhabited

namespace Format

/-- Every format. -/
def all : List Format := [.sarif, .semgrep, .cppcheck, .compiler, .jsonLines]

/-- The name of a format. -/
def label : Format → String
  | .sarif => "sarif"
  | .semgrep => "semgrep"
  | .cppcheck => "cppcheck"
  | .compiler => "gcc"
  | .jsonLines => "jsonl"

/-- The format of a name. -/
def ofLabel? (s : String) : Option Format := all.find? (·.label == s)

/-- What the words for severities mean in a format. -/
def severities : Format → List (String × Severity)
  | .sarif => Sarif.severities
  | .semgrep => Semgrep.severities
  | .cppcheck => Cppcheck.severities
  | .compiler => Compiler.severities
  | .jsonLines => []

/-- The records of an output. -/
def split : Format → String → Except Fault (List ToolRecord)
  | .sarif, raw => Sarif.split raw
  | .semgrep, raw => Semgrep.split raw
  | .cppcheck, raw => Cppcheck.split raw
  | .compiler, raw => .ok (Compiler.split raw)
  | .jsonLines, raw => .ok (JsonLines.split raw)

/-- The version of the tool that an output gives, if any. -/
def version? : Format → String → Except Fault (Option String)
  | .sarif, raw => Sarif.version? raw
  | .semgrep, raw => Semgrep.version? raw
  | .cppcheck, raw => Cppcheck.version? raw
  | .compiler, _ => .ok none
  | .jsonLines, _ => .ok none

/-- A record as a value, for the formats whose records are values. -/
def valueOf : ToolRecord → Value
  | .value v => v
  | .element e _ => .text e.shown

/-- Reads a record. -/
def parse : Format → ToolRun → ToolRecord → Except Fault ToolFinding
  | .sarif, run, r => Sarif.parse run (valueOf r)
  | .semgrep, run, r => Semgrep.parse run (valueOf r)
  | .cppcheck, run, r => Cppcheck.parse run r
  | .compiler, run, r => Compiler.parse run (valueOf r)
  | .jsonLines, run, r => JsonLines.parse run (valueOf r)

end Format

end Assay
