import Assay.Tool.Format

/-!
# Tools

The tools that are known by name: the format of their output, the standard that their rules belong
to, how they are run and asked for their version, and where their output appears.
-/

namespace Assay

/-- The stream on which a tool reports. -/
inductive Stream where
  | stdout
  | stderr
  deriving Repr, DecidableEq, Inhabited

/-- The name of a stream. -/
def Stream.label : Stream → String
  | .stdout => "stdout"
  | .stderr => "stderr"

/-- A tool that is known by name. -/
structure Tool where
  key : String
  label : String
  format : Format
  /-- The standard in which the crosswalk looks the tool's rules up. -/
  standard : String
  /-- How the tool is run; without a command it must be given one, or its output. -/
  command : Option String
  versionCommand : Option String
  stream : Stream
  /-- The number of the first line of a file. -/
  lineBase : Int
  deriving Repr, DecidableEq, Inhabited

namespace Tool

/-- Semgrep. -/
def semgrep : Tool :=
  { key := "semgrep", label := "Semgrep", format := .semgrep, standard := "semgrep"
    command := some ("semgrep scan --config auto --json --quiet --metrics off --output " ++
      "\x7boutput\x7d \x7bcorpus\x7d")
    versionCommand := some "semgrep --version", stream := .stdout, lineBase := 1 }

/-- Cppcheck. -/
def cppcheck : Tool :=
  { key := "cppcheck", label := "Cppcheck", format := .cppcheck, standard := "cppcheck"
    command := some ("cppcheck --enable=all --inconclusive --xml --xml-version=2 " ++
      "--output-file=\x7boutput\x7d \x7bcorpus\x7d")
    versionCommand := some "cppcheck --version", stream := .stdout, lineBase := 1 }

/-- The warnings of the GNU compiler. -/
def gcc : Tool :=
  { key := "gcc", label := "GCC warnings", format := .compiler, standard := "gcc"
    command := some ("gcc -fsyntax-only -Wall -Wextra -Wformat=2 -Wconversion -Wsign-compare " ++
      "-fdiagnostics-plain-output \x7bsources\x7d")
    versionCommand := some "gcc -dumpfullversion", stream := .stderr, lineBase := 1 }

/-- The warnings of Clang. -/
def clang : Tool :=
  { key := "clang", label := "Clang warnings", format := .compiler, standard := "clang"
    command := some "clang -fsyntax-only -Weverything -fno-caret-diagnostics \x7bsources\x7d"
    versionCommand := some "clang --version", stream := .stderr, lineBase := 1 }

/-- Clang-tidy. -/
def clangTidy : Tool :=
  { key := "clang-tidy", label := "clang-tidy", format := .compiler, standard := "clang-tidy"
    command := some ("clang-tidy --quiet " ++
      "--checks=-*,bugprone-*,cert-*,clang-analyzer-*,cppcoreguidelines-* \x7bsources\x7d --")
    versionCommand := some "clang-tidy --version", stream := .stdout, lineBase := 1 }

/-- CodeQL. -/
def codeql : Tool :=
  { key := "codeql", label := "CodeQL (SARIF)", format := .sarif, standard := "codeql"
    command := none, versionCommand := some "codeql version --format=terse"
    stream := .stdout, lineBase := 1 }

/-- Any tool that writes SARIF. -/
def sarif : Tool :=
  { key := "sarif", label := "Any SARIF 2.1.0 producer", format := .sarif, standard := "sarif"
    command := none, versionCommand := none, stream := .stdout, lineBase := 1 }

/-- Any tool that writes JSON lines. -/
def jsonLines : Tool :=
  { key := "jsonl", label := "Generic JSON Lines", format := .jsonLines, standard := "generic"
    command := none, versionCommand := none, stream := .stdout, lineBase := 1 }

/-- Every tool, in the order of the keys. -/
def all : List Tool := [clang, clangTidy, codeql, cppcheck, gcc, jsonLines, sarif, semgrep]

/-- The keys of the tools, in ascending order. -/
def keys : List String := all.map Tool.key

/-- The tool with a key, written in any case and with blanks around it. -/
def find? (name : String) : Option Tool :=
  let key := Text.toLower (Text.strip name)
  all.find? (·.key == key)

/-- The tool that a value names. -/
def ofValue (v : Value) : Except Fault Tool :=
  match find? v.textOrEmpty with
  | some t => .ok t
  | none => .error (.unknownTool v.shown keys)

/-- The tool as a document. -/
def toValue (t : Tool) : Value :=
  .record [
    ("key", .text t.key),
    ("label", .text t.label),
    ("format", .text t.format.label),
    ("rule_namespace", .text t.standard),
    ("line_base", .int t.lineBase),
    ("command", .ofOption .text t.command)]

end Tool

end Assay
