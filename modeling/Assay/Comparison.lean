import Assay.Category
import Assay.Json.Writer
import Assay.Matching.Weight
import Assay.Report

/-!
# Comparing two runs

A comparison sets the metrics of a candidate run against those of a baseline run, category by
category and overall. A category has regressed if its recall fell by more than a threshold, or if
matches were found before and none are found now. Metrics are taken as they were stored, so that
runs of older forms can be compared too; differences in what was compared are noted.
-/

namespace Assay

/-- Why a category counts as regressed. -/
inductive Regression where
  | recallDropped (drop threshold : Float)
  | matchesLost (before : Int)

/-- The reason in words. -/
def Regression.message : Regression → String
  | .recallDropped x t =>
    "recall dropped by " ++ Binary64.toFixed 4 x ++ " (threshold " ++ Binary64.toFixed 4 t ++ ")"
  | .matchesLost n => "true positives fell from " ++ toString n ++ " to 0"

/-- The metrics of a category in both runs, what became of them, and why that is a regression if it
is one. -/
structure Delta where
  category : String
  baseline : List (String × Value)
  candidate : List (String × Value)
  deltas : List (String × Option Float)
  reasons : List Regression
  deriving Inhabited

namespace Delta

/-- The counts that are compared; what is missing counts as zero. -/
def countNames : List String := ["tp", "fp", "fn"]

/-- The ratios that are compared; what is missing has no difference. -/
def ratioNames : List String := ["precision", "recall", "f1"]

/-- The fields of a block that are compared. -/
def pick (block : Value) : Except Fault (List (String × Value)) := do
  let fields ← block.fieldsOrEmpty
  return (countNames ++ ratioNames).map fun name => (name, fields.get name)

/-- The value of a picked field. -/
def field (picked : List (String × Value)) (name : String) : Value :=
  (picked.lookup name).getD .null

/-- The number that a stored metric is; truth values, and texts that are no numbers, are none. -/
def numberOf (v : Value) : Except Fault (Option Float) :=
  match v with
  | .bool _ => .ok none
  | v =>
    match v.toFloat with
    | .ok x => .ok (some x)
    | .error .tooLarge => .error .tooLarge
    | .error _ => .ok none

/-- The difference between two metrics, if both are numbers. -/
def between (before after : Value) : Except Fault (Option Float) := do
  match ← numberOf before, ← numberOf after with
  | some x, some y => return some (← roundedScore (y - x))
  | _, _ => return none

/-- The differences of all fields. -/
def betweenAll (b c : List (String × Value)) : Except Fault (List (String × Option Float)) := do
  let counts ← countNames.mapM fun name => do
    return (name, ← between ((field b name).orElse (.int 0)) ((field c name).orElse (.int 0)))
  let ratios ← ratioNames.mapM fun name => do
    return (name, ← between (field b name) (field c name))
  return counts ++ ratios

/-- The regression that a difference in recall is, if it is one. -/
def ofRecall (threshold : Value.Quantity) : Option Float → Except Fault (List Regression)
  | some x =>
    if threshold.less (.binary (-x)) then
      match threshold.toFloat? with
      | some t => .ok [.recallDropped x.abs t]
      | none => .error .tooLarge
    else .ok []
  | none => .ok []

/-- The regression that losing every match is. -/
def ofMatches (before after : Int) : List Regression :=
  if 0 < before ∧ after = 0 then [.matchesLost before] else []

/-- The comparison of two blocks of metrics. -/
def ofBlocks (threshold : Value.Quantity) (category : String) (baseline candidate : Value) :
    Except Fault Delta := do
  let b ← pick baseline
  let c ← pick candidate
  let deltas ← betweenAll b c
  let dropped ← ofRecall threshold (deltas.lookup "recall").join
  let before ← (field b "tp").intOrZero
  let after ← (field c "tp").intOrZero
  return {
    category, deltas
    baseline := b
    candidate := c
    reasons := dropped ++ ofMatches before after }

/-- Whether the category has regressed. -/
def regressed (d : Delta) : Bool := !d.reasons.isEmpty

/-- The comparison as a document. -/
def toValue (d : Delta) : Value :=
  .record [
    ("category", .text d.category),
    ("baseline", .record d.baseline),
    ("candidate", .record d.candidate),
    ("deltas", .record (d.deltas.map fun (k, x) => (k, .ofOption .float x))),
    ("regressed", .bool d.regressed),
    ("reasons", .list (d.reasons.map fun r => .text r.message))]

end Delta

/-- What makes two runs less comparable; settings are given as they are written. -/
inductive ComparisonNote where
  | keyField (name baseline candidate : String)
  | matching (baseline candidate : String)
  | incomplete (side : String)

/-- The note in words. -/
def ComparisonNote.message : ComparisonNote → String
  | .keyField name b c =>
    name ++ " differs: baseline=" ++ Text.quoted b ++ " candidate=" ++ Text.quoted c
  | .matching b c =>
    "matching settings differ: baseline=" ++ b ++ " candidate=" ++ c
  | .incomplete side => side ++ " run is incomplete (tool timed out or crashed)"

/-- A candidate run set against a baseline run. -/
structure Comparison where
  baselineId : String
  candidateId : String
  threshold : Float
  overall : Delta
  categories : List Delta
  notes : List ComparisonNote

namespace Comparison

/-- The version of the form of comparisons. -/
def currentSchema : String := "run_comparison_v1"

/-- The rank of a name that is no category. -/
def foreignRank : Nat := 1000000

/-- The rank of a category's name. -/
def rankOf (name : Value) : Nat :=
  ((Category.ofValue? true name).map Category.rank).getD foreignRank

/-- The order of categories in a comparison: by rank, then by name. -/
def before (a b : Value) : Bool :=
  rankOf a < rankOf b || (rankOf a == rankOf b && Json.keyBefore a b)

/-- The metrics of the categories of a report, empty unless they count as given. -/
def categoriesOf (r : Report) : Value := (r.metrics.get "by_category").orElse (.map [])

/-- The names of categories among metrics: the keys of a mapping, or items that could be keys. -/
def namesIn (metrics : Value) : Except Fault (List Value) := do
  let names ← metrics.items
  if names.all Value.isKey then return names else throw .wrongKind

/-- Names with each one kept once, at its first place. -/
def distinct : List Value → List Value
  | [] => []
  | n :: rest => n :: (distinct rest).filter fun m => !m.same n

/-- The names in either of two blocks of metrics, in order. Names that are no categories must be
comparable, and only mappings have metrics by name. -/
def namesOf (a b : Value) : Except Fault (List String) := do
  let all := distinct ((← namesIn a) ++ (← namesIn b))
  let foreign := all.filter (rankOf · == foreignRank)
  if !(foreign.all fun n => foreign.all fun m => n.same m || Json.comparable n m) then
    throw .wrongKind
  if !all.isEmpty && !(a.isMap && b.isMap) then throw .noFields
  return (all.mergeSort fun x y => !before y x).map Value.toText

/-- The notes on two reports. -/
def notesOf (baseline candidate : Report) : Except Fault (List ComparisonNote) := do
  let keys := (baseline.key.zip candidate.key).filterMap fun ((name, b), (_, c)) =>
    if b = c then none else some (.keyField name b c)
  let matching ← if baseline.matching.same candidate.matching then pure []
    else do pure [.matching (← Json.inline baseline.matching) (← Json.inline candidate.matching)]
  return keys ++ matching ++
    (if baseline.incomplete then [.incomplete "baseline"] else []) ++
    (if candidate.incomplete then [.incomplete "candidate"] else [])

/-- The threshold that a value stands for: a number that is not negative. -/
def thresholdOf (v : Value) : Except Fault Value.Quantity :=
  match v.quantity? with
  | none => .error .wrongKind
  | some q => if q.less (.whole 0) then .error (.rejected (.threshold v)) else .ok q

/-- Sets a candidate report against a baseline report. The threshold need not be a double until all
else is done. -/
def ofReports (threshold : Value.Quantity) (baseline candidate : Report) :
    Except Fault Comparison := do
  let b := categoriesOf baseline
  let c := categoriesOf candidate
  let categories ← (← namesOf b c).mapM fun name =>
    Delta.ofBlocks threshold name (b.get name) (c.get name)
  let overall ← Delta.ofBlocks threshold "overall" (baseline.metrics.get "overall")
    (candidate.metrics.get "overall")
  let notes ← notesOf baseline candidate
  match threshold.toFloat? with
  | none => throw .tooLarge
  | some t =>
    return {
      baselineId := baseline.runId.getD ""
      candidateId := candidate.runId.getD ""
      threshold := t
      overall, categories, notes }

/-- The categories that have regressed. -/
def regressed (c : Comparison) : List String :=
  (c.categories.filter Delta.regressed).map Delta.category

/-- Whether a category has regressed. -/
def hasRegression (c : Comparison) : Bool := c.categories.any Delta.regressed

/-- The comparison as a document. -/
def toValue (c : Comparison) : Value :=
  .record [
    ("schema_version", .text currentSchema),
    ("baseline_run_id", .text c.baselineId),
    ("candidate_run_id", .text c.candidateId),
    ("threshold", .float c.threshold),
    ("has_regression", .bool c.hasRegression),
    ("regressed_categories", .list (c.regressed.map .text)),
    ("overall", c.overall.toValue),
    ("categories", .list (c.categories.map Delta.toValue)),
    ("notes", .list (c.notes.map fun n => .text n.message))]

end Comparison

end Assay
