import Assay.Diagnostics
import Assay.Finding

/-!
# Crosswalks

A crosswalk says which categories the rules of tools and coding standards belong to, and how surely.
It is built row by row: of several rows for one rule and category the one with the greatest
confidence stands. A rule without a row is of category `unknown` with confidence zero; that is a gap,
and a warning, never an error.
-/

namespace Assay

/-- A rule as crosswalks look it up: the standard in lower case, both parts trimmed. -/
structure RuleKey where
  standard : String
  rule : String
  deriving Repr, DecidableEq, Inhabited

namespace RuleKey

/-- The key of a rule. -/
def of (standard rule : String) : RuleKey := ⟨Text.toLower (Text.strip standard), Text.strip rule⟩

/-- The key of a rule whose parts need not be texts. -/
def ofValues (standard rule : Value) : RuleKey := of standard.textOrEmpty rule.textOrEmpty

/-- The key of a rule whose parts need not be texts, if no integer in them is too long. -/
def read (standard rule : Value) : Except NumeralError RuleKey :=
  return of (← standard.textOrEmpty?) (← rule.textOrEmpty?)

/-- The key in messages. -/
def label (k : RuleKey) : String := k.standard ++ ":" ++ k.rule

end RuleKey

/-- A category of a rule. -/
structure CrosswalkRow where
  key : RuleKey
  category : Category
  confidence : Float
  deriving Repr, Inhabited

namespace CrosswalkRow

/-- The classification that a row gives. -/
def classification (r : CrosswalkRow) : Classification := ⟨r.category, r.confidence⟩

/-- The row as a document. -/
def toValue (r : CrosswalkRow) : Value :=
  .record [
    ("standard", .text r.key.standard),
    ("ruleId", .text r.key.rule),
    ("category", .text r.category.label),
    ("confidence", .float r.confidence)]

/-- The order of rows: standard, rule, name of the category. -/
def before (a b : CrosswalkRow) : Bool :=
  Text.before a.key.standard b.key.standard || (a.key.standard == b.key.standard &&
    (Text.before a.key.rule b.key.rule || (a.key.rule == b.key.rule &&
      Text.before a.category.label b.category.label)))

end CrosswalkRow

/-- A table of rules and categories with a version. -/
structure Crosswalk where
  version : String
  rows : List CrosswalkRow
  deriving Repr, Inhabited

namespace Crosswalk

/-- The rows of a rule. -/
def rowsOf (x : Crosswalk) (k : RuleKey) : List CrosswalkRow := x.rows.filter (·.key == k)

/-- Whether a rule has a row. -/
def covers (x : Crosswalk) (k : RuleKey) : Bool := x.rows.any (·.key == k)

/-- The classifications of a rule. -/
def resolve (x : Crosswalk) (k : RuleKey) : List Classification :=
  match x.rowsOf k with
  | [] => [.uncovered]
  | rows => rows.map CrosswalkRow.classification

/-- The warning that a rule has no row. -/
def gapWarning (x : Crosswalk) (k : RuleKey) : String :=
  "crosswalk " ++ x.version ++ " has no entry for " ++ k.label

/-- The standards that have a row, in ascending order. -/
def standards (x : Crosswalk) : List String :=
  Diagnostics.canonical (x.rows.map (·.key.standard))

/-- The crosswalk as a document. -/
def toValue (x : Crosswalk) : Value :=
  .record [("version", .text x.version), ("rows", .list (x.rows.map CrosswalkRow.toValue))]

/-- A crosswalk in the making. -/
structure Builder where
  version : String
  /-- At most one row for each rule and category. -/
  rows : List CrosswalkRow
  /-- The finished crosswalk; nothing can be added to it. -/
  frozen : Option Crosswalk

namespace Builder

/-- An empty crosswalk with a version. -/
def start (version : Value) : Except Fault Builder :=
  match version.textOrEmpty?.map Text.strip with
  | .error e => .error (.numeral e)
  | .ok v => if v = "" then .error (.crosswalk .noVersion) else .ok ⟨v, [], none⟩

/-- Whether two rows are about the same rule and category. -/
def sameSlot (a b : CrosswalkRow) : Bool := a.key == b.key && a.category == b.category

/-- Rows with one more: of two rows for one rule and category the more confident one stays, and of
two equally confident ones the earlier. -/
def insertRow (r : CrosswalkRow) : List CrosswalkRow → List CrosswalkRow
  | [] => [r]
  | old :: rest =>
    if sameSlot old r then (if old.confidence ≥ r.confidence then old else r) :: rest
    else old :: insertRow r rest

/-- The confidence that a value stands for: a number from zero to one and no truth value. -/
def confidenceOf (k : RuleKey) (v : Value) : Except Fault Float :=
  let isTruthValue := match v with | .bool _ => true | _ => false
  match v.toFloat with
  | .error .tooLarge => .error .tooLarge
  | .error _ => do
    throw (.crosswalk (.confidenceKind k.standard k.rule (← v.shown?.mapError .numeral)))
  | .ok x => do
    if !isTruthValue && 0 ≤ x && x ≤ 1 then return x
    throw (.crosswalk (.confidenceRange k.standard k.rule (← v.shown?.mapError .numeral)))

/-- The row that four values stand for. -/
def rowOf (standard rule category confidence : Value) : Except Fault CrosswalkRow := do
  let k ← (RuleKey.read standard rule).mapError .numeral
  if k.standard = "" ∨ k.rule = "" then throw (.crosswalk .noKey)
  match ← (Category.read? false category).mapError .numeral with
  | none =>
    throw (.crosswalk (.category k.standard k.rule (← category.shown?.mapError .numeral)))
  | some c => return ⟨k, c, ← confidenceOf k confidence⟩

/-- The crosswalk with one more row. -/
def register (b : Builder) (standard rule category confidence : Value) : Except Fault Builder := do
  if b.frozen.isSome then throw (.crosswalk (.frozen b.version))
  let r ← rowOf standard rule category confidence
  return { b with rows := insertRow r b.rows }

/-- The crosswalk of the rows so far. -/
def snapshot (b : Builder) : Crosswalk :=
  ⟨b.version, b.rows.mergeSort fun r s => !CrosswalkRow.before s r⟩

/-- The crosswalk, finished or not. -/
def table (b : Builder) : Crosswalk := b.frozen.getD b.snapshot

/-- Finishes the crosswalk. -/
def freeze (b : Builder) : Builder := { b with frozen := some b.table }

end Builder

/-- The problem of a row, if it is a fault of crosswalks; any other fault ends the reading. -/
def rowProblem (index : Nat) (f : Fault) : Except Fault String :=
  match f with
  | .crosswalk c => .ok ("row " ++ toString index ++ ": " ++ c.message)
  | f => .error f

/-- Adds the row of a document to a crosswalk. -/
def registerValue (b : Builder) (row : Value) : Except Fault Builder :=
  let confidence := row.get "confidence"
  b.register (row.firstPresent ["standard", "tool"])
    (row.firstPresent ["ruleId", "rule_id", "rule"]) (row.get "category")
    (if confidence.isNull then .float 1 else confidence)

/-- Adds rows of a document, the first of which is number `index`. The problems of rows that cannot
be added are collected. -/
def registerAll (b : Builder) (index : Nat) : List Value → Except Fault (Builder × List String)
  | [] => .ok (b, [])
  | row :: rest => do
    if !row.isMap then
      let (b, problems) ← registerAll b (index + 1) rest
      return (b, ("row " ++ toString index ++ ": must be a mapping") :: problems)
    match registerValue b row with
    | .ok b => registerAll b (index + 1) rest
    | .error f =>
      let problem ← rowProblem index f
      let (b, problems) ← registerAll b (index + 1) rest
      return (b, problem :: problems)

/-- The crosswalk of the rows of a document. -/
def ofRows (version : Value) (rows : List Value) : Except Fault Crosswalk := do
  let (b, problems) ← registerAll (← Builder.start version) 0 rows
  if !problems.isEmpty then throw (.crosswalk (.rows problems))
  return b.table

end Crosswalk

end Assay
