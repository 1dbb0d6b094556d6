import Assay.Text.Blank
import Assay.Text.Case
import Assay.Value.Display

/-!
# Defect categories

The closed taxonomy that ground truth and crosswalks speak. The order of the categories breaks ties
between classifications of equal confidence. `unknown` stands for rules that a crosswalk does not
cover; it is no canonical category and never occurs in ground truth.
-/

namespace Assay

/-- A defect category, or `unknown`. -/
inductive Category where
  | bufferOverflow
  | useAfterFree
  | uninitializedRead
  | integerOverflow
  | formatString
  | toctou
  | weakRandomness
  | signedUnsignedMismatch
  | missingBoundsCheck
  | resourceLeak
  | danglingReference
  | doubleFree
  | aliasingSlicing
  | other
  | unknown
  deriving Repr, DecidableEq, Inhabited

namespace Category

/-- Every category in order, `unknown` last. -/
def all : List Category :=
  [.bufferOverflow, .useAfterFree, .uninitializedRead, .integerOverflow, .formatString, .toctou,
   .weakRandomness, .signedUnsignedMismatch, .missingBoundsCheck, .resourceLeak,
   .danglingReference, .doubleFree, .aliasingSlicing, .other, .unknown]

/-- The written name of a category. -/
def label : Category → String
  | .bufferOverflow => "buffer-overflow"
  | .useAfterFree => "use-after-free"
  | .uninitializedRead => "uninitialized-read"
  | .integerOverflow => "integer-overflow"
  | .formatString => "format-string"
  | .toctou => "toctou"
  | .weakRandomness => "weak-randomness"
  | .signedUnsignedMismatch => "signed-unsigned-mismatch"
  | .missingBoundsCheck => "missing-bounds-check"
  | .resourceLeak => "resource-leak"
  | .danglingReference => "dangling-reference"
  | .doubleFree => "double-free"
  | .aliasingSlicing => "aliasing/slicing"
  | .other => "other"
  | .unknown => "unknown"

/-- The position of a category in the order. -/
def rank : Category → Nat
  | .bufferOverflow => 0
  | .useAfterFree => 1
  | .uninitializedRead => 2
  | .integerOverflow => 3
  | .formatString => 4
  | .toctou => 5
  | .weakRandomness => 6
  | .signedUnsignedMismatch => 7
  | .missingBoundsCheck => 8
  | .resourceLeak => 9
  | .danglingReference => 10
  | .doubleFree => 11
  | .aliasingSlicing => 12
  | .other => 13
  | .unknown => 14

/-- The categories that ground truth may use. -/
def isCanonical (c : Category) : Bool := c != .unknown

/-- Other names of some categories. -/
def aliases : List (String × Category) :=
  [("aliasing-slicing", .aliasingSlicing), ("aliasing", .aliasingSlicing),
   ("slicing", .aliasingSlicing), ("uaf", .useAfterFree), ("toc-tou", .toctou)]

/-- Underscores and spaces are read like hyphens. -/
def hyphenated (c : Char) : Char := if c = '_' ∨ c = ' ' then '-' else c

/-- A label as it is looked up: trimmed, in lower case, with hyphens. -/
def lookupForm (s : String) : String :=
  String.ofList ((Text.toLower (Text.strip s)).toList.map hyphenated)

/-- The category of a label in its lookup form. -/
def find? (form : String) : Option Category :=
  match all.find? (·.label == form) with
  | some c => some c
  | none => aliases.lookup form

/-- The category that a text names. -/
def ofText? (allowUnknown : Bool) (s : String) : Option Category :=
  (find? (lookupForm s)).filter fun c => allowUnknown || c.isCanonical

/-- The category that a value names. -/
def ofValue? (allowUnknown : Bool) : Value → Option Category
  | .null => none
  | .bool _ => none
  | v => ofText? allowUnknown v.toText

/-- The category that a value names, if no integer in the value is too long. -/
def read? (allowUnknown : Bool) : Value → Except NumeralError (Option Category)
  | .null => .ok none
  | .bool _ => .ok none
  | v => return ofText? allowUnknown (← v.toText?)

theorem mem_all (c : Category) : c ∈ all := by cases c <;> decide

theorem rank_injective {a b : Category} (h : a.rank = b.rank) : a = b := by
  revert h
  cases a <;> cases b <;> decide

end Category

end Assay
