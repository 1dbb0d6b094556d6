import Assay.Calendar
import Assay.Number.Binary64

/-!
# Values of structured documents

Annotations, crosswalks, configuration files, stored reports and tool output are read into one kind
of value. A mapping keeps its entries in the order of the document and has one entry a key; the key
of a later duplicate is the earlier one and its value the later one. A document may name a value
inside that value; what such a loop reaches is kept in cells, and `unfold` opens one level of it.
-/

namespace Assay

/-- A value of a structured document. -/
inductive Value where
  | null
  | bool (b : Bool)
  | int (n : Int)
  | float (x : Float)
  | text (s : String)
  | date (d : Date)
  | moment (m : Moment)
  | bytes (bs : List UInt8)
  | list (items : List Value)
  /-- A list of a fixed length. -/
  | tuple (items : List Value)
  /-- Members without an order, each once. -/
  | set (members : List Value)
  | map (entries : List (Value × Value))
  /-- The value in a cell of the loop around this place. -/
  | ref (cell : Nat)
  /-- A value whose parts refer to cells. -/
  | looped (cells : Array Value) (v : Value)
  deriving Inhabited

namespace Value

/-- A part of a value whose references lead to cells. -/
def inLoop (cells : Array Value) : Value → Value
  | .ref c => .looped cells (.ref c)
  | .list items => .looped cells (.list items)
  | .tuple items => .looped cells (.tuple items)
  | .map es => .looped cells (.map es)
  | v => v

/-- A value without references, whose parts may have them. -/
def opened (cells : Array Value) : Value → Value
  | .list items => .list (items.map (inLoop cells))
  | .tuple items => .tuple (items.map (inLoop cells))
  | .map es => .map (es.map fun (k, v) => (k, inLoop cells v))
  | v => v

/-- The value with its outermost level open: no reference and no loop. -/
def unfold : Value → Value
  | .looped cells (.ref c) => opened cells (cells.getD c .null)
  | .looped cells v => opened cells v
  | v => v

/-- A number as keys compare it: truth values count as 0 and 1. -/
inductive Quantity where
  | whole (n : Int)
  | binary (x : Float)

/-- The number that a value stands for in a comparison of keys. -/
def quantity? : Value → Option Quantity
  | .bool b => some (.whole (if b then 1 else 0))
  | .int n => some (.whole n)
  | .float x => some (.binary x)
  | _ => none

/-- Equality of numbers; two doubles with the same bits are the same. -/
def Quantity.same : Quantity → Quantity → Bool
  | .whole a, .whole b => a == b
  | .whole a, .binary y => Binary64.compareInt a y == some .eq
  | .binary x, .whole b => Binary64.compareInt b x == some .eq
  | .binary x, .binary y => x == y || x.toBits == y.toBits

/-- Order of numbers; what is no number has no place in it. -/
def Quantity.less : Quantity → Quantity → Bool
  | .whole a, .whole b => a < b
  | .whole a, .binary y => Binary64.compareInt a y == some .lt
  | .binary x, .whole b => Binary64.compareInt b x == some .gt
  | .binary x, .binary y => x < y

/-- The double nearest to a number, if it is not too large for one. -/
def Quantity.toFloat? : Quantity → Option Float
  | .whole n => Binary64.ofInt? n
  | .binary x => some x

/-- The moment in UTC as microseconds, for moments whose offset is known. -/
def instant? (m : Moment) : Option Int :=
  m.offset.map fun o =>
    ((m.date.toDays * 86400 + m.hour * 3600 + m.minute * 60 + m.second - o) * 1000000 +
      m.microsecond)

/-- Equality of moments: instants are compared if both are known. -/
def sameMoment (a b : Moment) : Bool :=
  match instant? a, instant? b with
  | some x, some y => x == y
  | none, none => a == b
  | _, _ => false

mutual

/-- Equality of values: numbers by quantity, mappings without regard to order. -/
def same : Value → Value → Bool
  | .null, .null => true
  | .text a, .text b => a == b
  | .date a, .date b => a == b
  | .moment a, .moment b => sameMoment a b
  | .bytes a, .bytes b => a == b
  | .list as, .list bs => sameItems as bs
  | .tuple as, .tuple bs => sameItems as bs
  | .map as, .map bs => as.length == bs.length && sameEntries as bs
  | a, b =>
    match a.quantity?, b.quantity? with
    | some x, some y => x.same y
    | _, _ => false

/-- Equality of lists, item by item. -/
def sameItems : List Value → List Value → Bool
  | [], [] => true
  | a :: as, b :: bs => same a b && sameItems as bs
  | _, _ => false

/-- Whether each entry of the first list has an equal one in the second. -/
def sameEntries : List (Value × Value) → List (Value × Value) → Bool
  | [], _ => true
  | (k, v) :: rest, bs => hasEntry k v bs && sameEntries rest bs

/-- Whether a list of entries has the key given, with an equal value. -/
def hasEntry (k v : Value) : List (Value × Value) → Bool
  | [] => false
  | (k', v') :: rest => (same k k' && same v v') || hasEntry k v rest

end

/-- The entries with one more: an equal key keeps its place and gets the new value. -/
def insertEntry (k v : Value) : List (Value × Value) → List (Value × Value)
  | [] => [(k, v)]
  | (k', v') :: rest =>
    if same k' k then (k', v) :: rest else (k', v') :: insertEntry k v rest

/-- A mapping of entries in order of reading. -/
def ofEntries (entries : List (Value × Value)) : Value :=
  .map (entries.foldl (fun acc (k, v) => insertEntry k v acc) [])

/-- A mapping whose keys are texts, all different. -/
def record (fields : List (String × Value)) : Value :=
  .map (fields.map fun (k, v) => (.text k, v))

/-- An optional value; none is null. -/
def ofOption (f : α → Value) : Option α → Value
  | some a => f a
  | none => .null

/-- The value of a text key among entries. -/
def lookupText? (key : String) : List (Value × Value) → Option Value
  | [] => none
  | (.text k, v) :: rest => if k = key then some v else lookupText? key rest
  | _ :: rest => lookupText? key rest

/-- The entries of a mapping. -/
def entries? (v : Value) : Option (List (Value × Value)) :=
  match v.unfold with
  | .map es => some es
  | _ => none

/-- The items of a list. -/
def list? (v : Value) : Option (List Value) :=
  match v.unfold with
  | .list items => some items
  | _ => none

/-- The value of a text key, if the value is a mapping that has it. -/
def get? (v : Value) (key : String) : Option Value := v.entries?.bind (lookupText? key)

/-- The value of a text key; null if there is none. -/
def get (v : Value) (key : String) : Value := (v.get? key).getD .null

/-- Whether the value is a mapping. -/
def isMap (v : Value) : Bool := v.entries?.isSome

/-- Whether the value is null. -/
def isNull : Value → Bool
  | .null => true
  | _ => false

/-- Whether the value counts as given: not null, false, zero or empty. -/
def isTruthy (v : Value) : Bool :=
  match v.unfold with
  | .null => false
  | .bool b => b
  | .int n => n != 0
  | .float x => x != 0
  | .text s => !s.isEmpty
  | .date _ => true
  | .moment _ => true
  | .bytes bs => !bs.isEmpty
  | .list items | .tuple items | .set items => !items.isEmpty
  | .map es => !es.isEmpty
  | .ref _ | .looped .. => true

/-- The value, or the other one if it does not count as given. -/
def orElse (v other : Value) : Value := if v.isTruthy then v else other

/-- The first of some keys whose value is there and not null. -/
def first (v : Value) : List String → Value
  | [] => .null
  | k :: ks =>
    match v.get? k with
    | some x => if x.isNull then v.first ks else x
    | none => v.first ks

/-- The value of the first of some keys that is there, null or not. -/
def firstPresent (v : Value) : List String → Value
  | [] => .null
  | k :: ks => (v.get? k).getD (v.firstPresent ks)

end Value

end Assay
