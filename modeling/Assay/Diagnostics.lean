import Assay.Value.Convert

/-!
# Diagnostics

Counts of everything that could distort a metric without showing in it. The counts are exact; of the
messages of unreadable records the first fifty are kept, and of the paths outside the corpus as many.
Names are kept once each, in ascending order.
-/

namespace Assay

/-- What went wrong while findings were read and matched. -/
structure Diagnostics where
  parseFailures : Int
  coverageGaps : Int
  coarseLocations : Int
  timeouts : Int
  crashes : Int
  unclassifiedExtras : Int
  unknownFiles : Int
  gapRules : List String
  unknownFilePaths : List String
  parseErrors : List String
  deriving Repr, DecidableEq, Inhabited

namespace Diagnostics

/-- The most messages and paths that are kept by recording. -/
def maxKept : Nat := 50

/-- Nothing went wrong. -/
def empty : Diagnostics := ⟨0, 0, 0, 0, 0, 0, 0, [], [], []⟩

/-- Names in ascending order. -/
def ascending (names : List String) : List String := names.mergeSort fun a b => !Text.before b a

/-- Names with each one kept once, at its first place. -/
def distinct : List String → List String
  | [] => []
  | n :: rest => n :: (distinct rest).filter (· != n)

/-- Names in ascending order, each once. -/
def canonical (names : List String) : List String := ascending (distinct names)

/-- Counts a record that could not be read. -/
def recordParseFailure (d : Diagnostics) (message : String) : Diagnostics :=
  { d with
    parseFailures := d.parseFailures + 1
    parseErrors := if d.parseErrors.length < maxKept then d.parseErrors ++ [message]
      else d.parseErrors }

/-- Counts a finding whose rule the crosswalk does not cover. -/
def recordGap (d : Diagnostics) (rule : String) : Diagnostics :=
  { d with
    coverageGaps := d.coverageGaps + 1
    gapRules := if d.gapRules.contains rule then d.gapRules else ascending (d.gapRules ++ [rule]) }

/-- Counts a finding in a file that is not in the corpus. -/
def recordUnknownFile (d : Diagnostics) (path : String) : Diagnostics :=
  { d with
    unknownFiles := d.unknownFiles + 1
    unknownFilePaths :=
      if !d.unknownFilePaths.contains path && d.unknownFilePaths.length < maxKept then
        ascending (d.unknownFilePaths ++ [path])
      else d.unknownFilePaths }

/-- Counts a finding without a usable line. -/
def recordCoarse (d : Diagnostics) : Diagnostics :=
  { d with coarseLocations := d.coarseLocations + 1 }

/-- The counts and names of two records together. -/
def merge (a b : Diagnostics) : Diagnostics :=
  { parseFailures := a.parseFailures + b.parseFailures
    coverageGaps := a.coverageGaps + b.coverageGaps
    coarseLocations := a.coarseLocations + b.coarseLocations
    timeouts := a.timeouts + b.timeouts
    crashes := a.crashes + b.crashes
    unclassifiedExtras := a.unclassifiedExtras + b.unclassifiedExtras
    unknownFiles := a.unknownFiles + b.unknownFiles
    gapRules := canonical (a.gapRules ++ b.gapRules)
    unknownFilePaths := canonical (a.unknownFilePaths ++ b.unknownFilePaths)
    parseErrors := a.parseErrors ++ b.parseErrors.take (maxKept - a.parseErrors.length) }

/-- The diagnostics as a document. -/
def toValue (d : Diagnostics) : Value :=
  let texts (names : List String) : Value := .list (names.map .text)
  .record [
    ("parse_failures", .int d.parseFailures),
    ("coverage_gaps", .int d.coverageGaps),
    ("coarse_locations", .int d.coarseLocations),
    ("timeouts", .int d.timeouts),
    ("crashes", .int d.crashes),
    ("unclassified_extras", .int d.unclassifiedExtras),
    ("unknown_files", .int d.unknownFiles),
    ("unknown_file_paths", texts d.unknownFilePaths),
    ("gap_rules", texts d.gapRules),
    ("parse_errors", texts d.parseErrors)]

/-- Reads diagnostics leniently: what is missing is zero or empty. -/
def ofValue (v : Value) : Except Fault Diagnostics := do
  let d ← v.requireFields
  let count (name : String) : Except Fault Int := (d.get name).intOrZero
  let texts (name : String) : Except Fault (List String) := do
    return (← (d.get name).itemsOrNone).map Value.toText
  return {
    parseFailures := ← count "parse_failures"
    coverageGaps := ← count "coverage_gaps"
    coarseLocations := ← count "coarse_locations"
    timeouts := ← count "timeouts"
    crashes := ← count "crashes"
    unclassifiedExtras := ← count "unclassified_extras"
    unknownFiles := ← count "unknown_files"
    unknownFilePaths := ← texts "unknown_file_paths"
    gapRules := ← texts "gap_rules"
    parseErrors := ← texts "parse_errors" }

end Diagnostics

end Assay
