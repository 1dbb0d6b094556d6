import Assay.Json.Reader
import Assay.Text.Utf8
import Assay.Value.Display

/-!
# Faults

Everything that can go wrong is named here by its cause, and each cause has its words in one place.
The causes fall into families: faults of the corpus, of the crosswalk, of the settings, of one tool
record, of a tool run and of the run store are reported to the user; a rejected value is a value of
the right kind outside its range; the remaining causes are faults of shape or size in loosely typed
input.
-/

namespace Assay

/-- Values of the right kind that a rule does not admit. -/
inductive Rejection where
  | tolerance (given : Value)
  | coarseDiscount (given : Value)
  | threshold (given : Value)
  | unknownMatchKind (kind : String)
  | unknownResultKind (kind : String)
  | missingPart (kind part : String)
  | noParts (kind : String)
  | notReport
  | raggedWeights
  | unknownKeyFields (fields : List String)
  | pairLength (index length : Nat)
  | undefinedInteger
  | openQuotation
  | openEscape
  | embeddedNull
  | codePoint
  deriving Inhabited

/-- The rejection in words. -/
def Rejection.message : Rejection → String
  | .tolerance v => "tolerance must be a non-negative integer, got " ++ v.shown
  | .coarseDiscount v => "coarse_discount must be within (0, 1], got " ++ v.shown
  | .threshold v => "regression threshold must be >= 0, got " ++ v.shown
  | .unknownMatchKind kind => "unknown match kind: " ++ Text.quoted kind
  | .unknownResultKind kind => "unknown match result kind " ++ Text.quoted kind
  | .missingPart kind part => kind ++ " result is missing its " ++ part
  | .noParts kind => kind ++ " result has neither a finding nor a ground truth"
  | .notReport => "run report must be a JSON object"
  | .raggedWeights => "weight matrix rows must all have the same length"
  | .unknownKeyFields fields =>
    "unknown run key fields: " ++ (Value.list (fields.map .text)).shown
  | .pairLength index length =>
    "dictionary update sequence element #" ++ toString index ++ " has length " ++
      toString length ++ "; 2 is required"
  | .undefinedInteger => "cannot convert float NaN to integer"
  | .openQuotation => "No closing quotation"
  | .openEscape => "No escaped character"
  | .embeddedNull => "embedded null byte"
  | .codePoint => "chr() arg not in range(0x110000)"

/-- What is wrong with the settings of a run; a value is given as messages show it. -/
inductive SettingsFault where
  | fileNotFound (path : String)
  | unreadable (detail : String)
  | notMapping (path : String)
  | sections
  | tools
  | tool (name : String)
  | integer (what given : String)
  | number (what given : String)
  | negativeTolerance (n : Int)
  | coarseDiscount (x : Float)
  | timeout (n : Int)
  | negativeThreshold (x : Float)
  | noTools
  | oneToolOnly (flag : String) (count : Nat)
  | noCommand (key : String)
  | noCrosswalk (names : List String) (root : String)
  | toolOutputNotFound (path : String)
  | epoch (text : String)
  | template (text : String) (cause : Rejection)
  | emptyTemplate
  | noOutputPath

/-- The fault in words. -/
def SettingsFault.message : SettingsFault → String
  | .fileNotFound path => "config file not found: " ++ path
  | .unreadable detail => detail
  | .notMapping path => path ++ ": config must be a mapping"
  | .sections => "'matching' and 'regression' config sections must be mappings"
  | .tools => "'tools' config section must be a mapping"
  | .tool name => "tools." ++ name ++ " must be a mapping"
  | .integer what v => what ++ " must be an integer, got " ++ v
  | .number what v => what ++ " must be a number, got " ++ v
  | .negativeTolerance n => "tolerance must be >= 0, got " ++ toString n
  | .coarseDiscount x => "coarse_discount must be within (0, 1], got " ++ Binary64.toText x
  | .timeout n => "timeout_seconds must be > 0, got " ++ toString n
  | .negativeThreshold x => "regression threshold must be >= 0, got " ++ Binary64.toText x
  | .noTools => "--tool needs at least one tool name"
  | .oneToolOnly flag count => flag ++ " applies to exactly one tool; got " ++ toString count
  | .noCommand key =>
    "tool " ++ Text.quoted key ++ " has no default command; pass --command or --tool-output"
  | .noCrosswalk names root =>
    "no crosswalk given and none of " ++ ", ".intercalate names ++ " exists under " ++ root
  | .toolOutputNotFound path => "tool output file not found: " ++ path
  | .epoch text => "SOURCE_DATE_EPOCH must be an integer epoch, got " ++ Text.quoted text
  | .template text cause =>
    "invalid command template " ++ Text.quoted text ++ ": " ++ cause.message
  | .emptyTemplate => "empty command template"
  | .noOutputPath => "template uses \x7boutput\x7d but no output path was given"

/-- What is wrong with a crosswalk or a row of one; a value is given as messages show it. -/
inductive CrosswalkFault where
  | noVersion
  | frozen (version : String)
  | noKey
  | category (standard rule given : String)
  | confidenceKind (standard rule given : String)
  | confidenceRange (standard rule given : String)
  | rows (problems : List String)
  | fileNotFound (path : String)
  | unreadable (detail : String)
  | notMapping (path : String)
  | missingVersion (path : String)
  | rowsNotList (path : String)

/-- The fault in words. -/
def CrosswalkFault.message : CrosswalkFault → String
  | .noVersion => "crosswalk version must be a non-empty string"
  | .frozen version => "crosswalk " ++ version ++ " is frozen; cannot register new rows"
  | .noKey => "crosswalk rows need both a standard and a ruleId"
  | .category standard rule v =>
    standard ++ ":" ++ rule ++ ": category " ++ v ++ " is not a canonical category"
  | .confidenceKind standard rule v =>
    standard ++ ":" ++ rule ++ ": confidence " ++ v ++ " is not a number"
  | .confidenceRange standard rule v =>
    standard ++ ":" ++ rule ++ ": confidence " ++ v ++ " must be within [0, 1]"
  | .rows problems => "invalid crosswalk rows:\n  " ++ "\n  ".intercalate problems
  | .fileNotFound path => "crosswalk file not found: " ++ path
  | .unreadable detail => detail
  | .notMapping path => path ++ ": crosswalk must be a mapping with 'version' and 'rows'"
  | .missingVersion path => path ++ ": crosswalk is missing a version"
  | .rowsNotList path => path ++ ": 'rows' must be a list"

/-- A record of tool output that is not a finding: why, and a preview of the record. -/
structure RecordFault where
  message : String
  preview : Option String
  deriving Repr, DecidableEq

/-- Why a tool run yields no complete output. -/
inductive RunFailure where
  | notStarted (detail : String)
  | timedOut (seconds : String)
  | killed (signal : Nat)
  deriving Repr, DecidableEq

/-- A failed tool run with the output it left. -/
structure Invocation.Fault where
  tool : String
  failure : RunFailure
  stdout : String
  stderr : String
  deriving Repr, DecidableEq

/-- The failure in words. -/
def Invocation.Fault.message (f : Invocation.Fault) : String :=
  match f.failure with
  | .notStarted detail => f.tool ++ " could not be started: " ++ detail
  | .timedOut seconds => f.tool ++ " timed out after " ++ seconds ++ "s"
  | .killed signal => f.tool ++ " was killed by signal " ++ toString signal

/-- Whether the run was ended for taking too long. -/
def Invocation.Fault.timedOut (f : Invocation.Fault) : Bool :=
  match f.failure with
  | .timedOut _ => true
  | _ => false

/-- A file operation that the state of the file tree does not admit. -/
inductive FileFault where
  | notFound
  | exists
  | isDirectory
  | notDirectory
  | nameTooLong
  | embeddedNull
  | busy
  deriving Repr, DecidableEq

/-- The fault in words. -/
def FileFault.message : FileFault → String
  | .notFound => "no such file or directory"
  | .exists => "file exists"
  | .isDirectory => "is a directory"
  | .notDirectory => "not a directory"
  | .nameTooLong => "file name too long"
  | .embeddedNull => "embedded null byte"
  | .busy => "device or resource busy"

/-- Everything that can go wrong. -/
inductive Fault where
  /-- Ground truth is malformed or contradictory; every problem is listed. -/
  | corpus (problems : List String)
  | settings (f : SettingsFault)
  | crosswalk (f : CrosswalkFault)
  /-- One record of tool output, or its container, is not readable. -/
  | record (f : RecordFault)
  | invocation (f : Invocation.Fault)
  | unknownTool (shownName : String) (registered : List String)
  | runNotFound (id : String)
  | storeFull (day root : String)
  | corruptRun (id detail : String)
  | rejected (r : Rejection)
  | numeral (e : NumeralError)
  | calendar (e : CalendarError)
  | malformedJson (e : Json.Error)
  | document (format path detail : String)
  | undecodable (e : Utf8.Error)
  | unencodable (e : Utf8.EncodeError)
  | file (f : FileFault)
  /-- A value of another kind was wanted. -/
  | wrongKind
  /-- A value without fields was asked for one. -/
  | noFields
  /-- A table has no entry for a name. -/
  | noEntry
  /-- A list has no item at a place. -/
  | noPlace
  /-- A number is too large for its form. -/
  | tooLarge
  /-- A decimal has no rounded form. -/
  | noDecimal
  | divisionByZero

namespace Fault

/-- The first problem of a corpus and the number of the others. -/
def corpusMessage : List String → String
  | [] => "corpus validation failed"
  | [p] => p
  | [p, _] => p ++ " (and 1 more problem)"
  | p :: rest => p ++ " (and " ++ toString rest.length ++ " more problems)"

/-- The fault in words. -/
def message : Fault → String
  | .corpus problems => corpusMessage problems
  | .settings f => f.message
  | .crosswalk f => f.message
  | .record f => f.message
  | .invocation f => f.message
  | .unknownTool name registered =>
    "unknown tool " ++ name ++ "; registered tools: " ++ ", ".intercalate registered
  | .runNotFound id => "no stored run with id " ++ Text.quoted id
  | .storeFull day root => "more than 99 runs stored on " ++ day ++ " under " ++ root
  | .corruptRun id detail => "stored run " ++ id ++ " is malformed: " ++ detail
  | .rejected r => r.message
  | .numeral e => e.message
  | .calendar e => e.message
  | .malformedJson e => e.message
  | .document format path detail => "invalid " ++ format ++ " in " ++ path ++ ": " ++ detail
  | .undecodable e => e.message
  | .unencodable e => e.message
  | .file f => f.message
  | .wrongKind => "value of the wrong kind"
  | .noFields => "value without fields"
  | .noEntry => "no such entry"
  | .noPlace => "no such item"
  | .tooLarge => "number too large"
  | .noDecimal => "no rounded form"
  | .divisionByZero => "division by zero"

/-- Whether a value, rather than the shape of the input, is to blame: a number, date, text or
document that cannot be read, or a value outside its range. -/
def isOfValue : Fault → Bool
  | .rejected _ | .numeral _ | .calendar _ | .malformedJson _ | .document .. | .undecodable _
  | .unencodable _ => true
  | _ => false

end Fault

end Assay
