import Assay.Corpus
import Assay.CorpusPath
import Assay.Files.Path
import Assay.Value.Convert

/-!
# Annotations

An annotation file holds one sample as a document: a mapping with its defects, or the bare list of
them. Every problem of a document is collected, so that one reading reports all of them. A document
that could not be a sample at all has one problem and no sample.
-/

namespace Assay.Annotation

/-- The ends of the names of annotation files. -/
def suffixes : List String := [".gt.yaml", ".gt.yml", ".gt.json"]

/-- Whether a name is that of an annotation file. -/
def isName (name : String) : Bool := suffixes.any fun s => s.toList.isSuffixOf name.toList

/-- The name of a sample that has no other: the path of its annotation file without its end. -/
def sampleIdOf (path : String) : String :=
  match suffixes.find? fun s => s.toList.isSuffixOf path.toList with
  | some s => String.ofList (path.toList.take (path.toList.length - s.toList.length))
  | none => path

/-- The language of the files with a suffix. -/
def languages : List (String × String) :=
  [(".c", "c"), (".h", "c"), (".cc", "cpp"), (".cpp", "cpp"), (".cxx", "cpp"), (".hpp", "cpp"),
   (".java", "java"), (".js", "javascript"), (".kt", "kotlin"), (".rs", "rust"),
   (".swift", "swift"), (".py", "python"), (".go", "go")]

/-- The language of a file. -/
def languageOf (file : String) : String :=
  (languages.lookup (Text.toLower (Path.ofText file).suffix)).getD "unknown"

/-- Whether a mark is set: a text must say so, any other value must count as given. -/
def markOf : Value → Bool
  | .text s => ["1", "true", "yes", "y"].contains (Text.toLower (Text.strip s))
  | v => v.isTruthy

/-- The trimmed text of a value, empty unless the value counts as given. -/
def textOf (v : Value) : Except Fault String :=
  (v.textOrEmpty?.map Text.strip).mapError .numeral

/-- The rule that an entry names, or its problem. -/
def ruleOf (place : String) (item : Value) : Except Fault (Except String RuleRef) := do
  if !item.isMap then return .error (place ++ ": standardRules entries must be mappings")
  let standard ← textOf (item.get "standard")
  let rule ← textOf (item.first ["ruleId", "rule_id", "rule"])
  if standard = "" ∨ rule = "" then
    return .error (place ++ ": standardRules entry needs both standard and ruleId")
  return .ok ⟨standard, rule⟩

/-- The rules of a list that could be read. -/
def readable (results : List (Except String RuleRef)) : List RuleRef :=
  results.filterMap fun | .ok r => some r | .error _ => none

/-- The problems of a list. -/
def problemsOf (results : List (Except String RuleRef)) : List String :=
  results.filterMap fun | .ok _ => none | .error p => some p

/-- Rules with each one kept once, at its first place. -/
def distinctRules : List RuleRef → List RuleRef
  | [] => []
  | r :: rest => r :: (distinctRules rest).filter (· != r)

/-- The rules that a defect refers to, in order and each once, and the problems of the others. -/
def rulesOf (place : String) (v : Value) : Except Fault (List RuleRef × List String) := do
  if v.isNull then return ([], [])
  match v.list? with
  | some items =>
    let results ← items.mapM (ruleOf place)
    return ((distinctRules (readable results)).mergeSort RuleRef.le, problemsOf results)
  | none => return ([], [place ++ ": standardRules must be a list"])

/-- The path of a file as annotations write it: with slashes, without leading dots. -/
def fileOf (text : String) : String :=
  String.ofList (CorpusPath.dropDots (CorpusPath.withSlashes text.toList))

/-- The problems of a line range in a file. `count` gives the number of lines of a file of the
corpus. -/
def rangeProblems (count : String → Except Fault (Option Nat)) (place file : String)
    (first last : Option Int) : Except Fault (List String) :=
  match first, last with
  | some a, some b => do
    let text (n : Int) : Except Fault String := (Numeral.written n).mapError .numeral
    if a < 1 then return [place ++ ": lineStart " ++ (← text a) ++ " is below 1"]
    else if b < a then
      return [place ++ ": line range " ++ (← text a) ++ "-" ++ (← text b) ++ " is inverted"]
    else if !Path.isSafeRelative file then return []
    else
      match ← count file with
      | none =>
        return [place ++ ": file " ++ Text.quoted file ++ " does not exist under the corpus root"]
      | some n =>
        if b > n then
          return [place ++ ": line range " ++ (← text a) ++ "-" ++ (← text b) ++ " exceeds " ++
            file ++ " (" ++ toString n ++ " lines)"]
        else return []
  | _, _ => return [place ++ ": lineStart/lineEnd must be integers"]

/-- The severity that a value names, `medium` if there is no value. -/
def severityOf (v : Value) : Except Fault (Option Severity) :=
  if v.isNull then .ok (some .medium) else (Severity.ofValue? v).mapError .numeral

/-- A problem, if something does not hold. -/
def expecting (holds : Bool) (problem : String) : List String := if holds then [] else [problem]

/-- A problem that names a value, if something does not hold. -/
def expectingOf (holds : Bool) (v : Value) (problem : String → String) :
    Except Fault (List String) :=
  if holds then .ok [] else (v.shown?.mapError .numeral).map fun s => [problem s]

/-- Reads a defect: the defect, or every problem that it has. -/
def defectOf (count : String → Except Fault (Option Nat)) (sampleId place : String) (raw : Value) :
    Except Fault (Except (List String) Defect) := do
  if !raw.isMap then return .error [place ++ ": finding must be a mapping"]
  let id ← textOf (raw.get "id")
  if id = "" then return .error [place ++ ": finding is missing an id"]
  let place := place ++ " [" ++ id ++ "]"
  let category ← (Category.read? false (raw.get "category")).mapError .numeral
  let categoryProblems ← expectingOf category.isSome (raw.get "category") fun v =>
    place ++ ": category " ++ v ++ " is not a canonical category"
  let severity ← severityOf (raw.get "severity")
  let severityProblems ← expectingOf severity.isSome (raw.get "severity") fun v =>
    place ++ ": severity " ++ v ++ " is not on the 5-point scale"
  let file := fileOf (← textOf (raw.first ["file", "file_path"]))
  let first ← (raw.first ["lineStart", "line_start", "line"]).lenientInt
  let lastRaw := raw.first ["lineEnd", "line_end"]
  let last ← if lastRaw.isNull then .ok first else lastRaw.lenientInt
  let ranges ← rangeProblems count place file first last
  let column ← (raw.get "column").lenientInt
  let (rules, ruleProblems) ← rulesOf place (raw.first ["standardRules", "standard_rules"])
  let problems :=
    categoryProblems ++ severityProblems ++
    expecting (Path.isSafeRelative file) (place ++ ": file " ++ Text.quoted file ++
      " must be a path relative to the corpus root") ++
    ranges ++
    expecting ((raw.get "column").isNull || column.any (1 ≤ ·))
      (place ++ ": column must be a positive integer") ++
    ruleProblems
  match category, severity, first, last with
  | some category, some severity, some lineStart, some lineEnd =>
    if !problems.isEmpty then return .error problems
    return .ok {
      id, sampleId, category, severity, rules
      location := { file, lineStart, lineEnd, column }
      note := ← (raw.get "note").textOrEmpty?.mapError .numeral
      conditional := markOf (raw.get "conditional")
      intentionalDuplicate :=
        markOf (raw.first ["intentionalDuplicate", "intentional_duplicate"]) }
  | _, _, _, _ => return .error problems

/-- Reads defects, the first of which is number `index`: those that could be read, and the problems
of the others. -/
def defectsOf (count : String → Except Fault (Option Nat)) (sampleId path : String) (index : Nat) :
    List Value → Except Fault (List Defect × List String)
  | [] => .ok ([], [])
  | raw :: rest => do
    let r ← defectOf count sampleId (path ++ "#" ++ toString index) raw
    let (ds, problems) ← defectsOf count sampleId path (index + 1) rest
    match r with
    | .ok d => return (d :: ds, problems)
    | .error ps => return (ds, ps ++ problems)

/-! ## Rules within a sample -/

/-- The problem that a name is used more than once. -/
def idProblems (sampleId : String) (ds : List Defect) : List String :=
  let ids := ds.map Defect.id
  (Diagnostics.canonical ids).filterMap fun id =>
    let n := ids.count id
    if 1 < n then
      some ("sample " ++ sampleId ++ ": finding id " ++ Text.quoted id ++ " is used " ++
        toString n ++ " times")
    else none

/-- Whether two defects have the same category at the same place. -/
def sameSpot (a b : Defect) : Bool := a.category == b.category && a.location == b.location

/-- Groups with one more defect: it joins the first group at its spot, or starts one. -/
def joinGroup (d : Defect) : List (List Defect) → List (List Defect)
  | [] => [[d]]
  | g :: rest => if g.any (sameSpot d) then (g ++ [d]) :: rest else g :: joinGroup d rest

/-- Defects in groups of the same category and place. -/
def groups (ds : List Defect) : List (List Defect) := ds.foldl (fun gs d => joinGroup d gs) []

/-- The order of groups: file, first line, name of the category. -/
def groupBefore (a b : Defect) : Bool :=
  Text.before a.file b.file || (a.file == b.file &&
    (a.location.lineStart < b.location.lineStart ||
      (a.location.lineStart == b.location.lineStart && Text.before a.category.label b.category.label)))

/-- The problem that defects share category and place without a mark that they may. -/
def groupProblem? (sampleId : String) : List Defect → Option String
  | d :: e :: rest =>
    if (d :: e :: rest).any (·.intentionalDuplicate) then none
    else
      let ids := Diagnostics.ascending ((d :: e :: rest).map Defect.id)
      some ("sample " ++ sampleId ++ ": findings " ++ ", ".intercalate ids ++
        " share category " ++ d.category.label ++ " at " ++ d.file ++ ":" ++
        toString d.location.lineStart ++ "-" ++ toString d.location.lineEnd ++
        " without an intentionalDuplicate marker")
  | _ => none

/-- The order of groups by their first members. -/
def groupLe : List Defect → List Defect → Bool
  | a :: _, b :: _ => !groupBefore b a
  | [], _ => true
  | _, [] => false

/-- The problems of defects that share category and place. -/
def spotProblems (sampleId : String) (ds : List Defect) : List String :=
  ((groups ds).mergeSort groupLe).filterMap (groupProblem? sampleId)

/-! ## Documents -/

/-- What the document of an annotation file says: name, language and raw defects of its sample. -/
structure Header where
  sampleId : String
  language : String
  defects : List Value

/-- What a document says, or why it is no annotation. -/
def headerOf (path : String) (doc : Value) : Except Fault (Except String Header) := do
  if let some items := doc.list? then return .ok ⟨sampleIdOf path, "", items⟩
  if !doc.isMap then
    return .error (path ++ ": annotation must be a mapping or a list of findings")
  let named := ((doc.get "sample").orElse (doc.get "id")).orElse (.text (sampleIdOf path))
  let id ← named.toText?.mapError .numeral
  let language ← textOf (doc.get "language")
  let findings := doc.get "findings"
  match if findings.isNull then some [] else findings.list? with
  | some items => return .ok ⟨Text.strip id, Text.toLower language, items⟩
  | none => return .error (path ++ ": findings must be a list")

/-- The language of a sample: the one given, else that of the file of its first defect. -/
def sampleLanguage (given : String) (ds : List Defect) : String :=
  if given ≠ "" then given
  else match ds with
    | d :: _ => languageOf d.file
    | [] => "unknown"

/-- The sample of a document, with every problem of its defects. -/
def sampleOf (count : String → Except Fault (Option Nat)) (path : String) (h : Header) :
    Except Fault (Sample × List String) := do
  let (ds, problems) ← defectsOf count h.sampleId path 0 h.defects
  let sample : Sample := {
    id := h.sampleId
    language := sampleLanguage h.language ds
    defects := ds.mergeSort fun a b => !b.before a
    annotation := path }
  return (sample, problems ++ idProblems h.sampleId ds ++ spotProblems h.sampleId ds)

end Assay.Annotation
