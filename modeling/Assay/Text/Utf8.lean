import Assay.Text.Hex
import Assay.Text.Surrogate

/-!
# UTF-8

Bytes are read one character at a time. Where no character can be read, the step says how many bytes
belong to the flaw: the longest start of a character that stands there. A strict reader stops at the
first flaw; a lenient one puts one replacement character for each.
-/

namespace Assay.Utf8

/-- Why no character can be read. -/
inductive Flaw where
  | badStart
  | badContinuation
  | truncated
  deriving Repr, DecidableEq

/-- What stands at the start of some bytes, and how many of them it takes. -/
inductive Step where
  | char (c : Char) (width : Nat)
  | flaw (f : Flaw) (width : Nat)
  deriving Repr

/-- The number of bytes that a step takes. -/
def Step.width : Step → Nat
  | .char _ w => w
  | .flaw _ w => w

/-- The payload of a continuation byte in the closed range given. -/
def payload? (low high : Nat) (b : UInt8) : Option Nat :=
  if low ≤ b.toNat ∧ b.toNat ≤ high then some (b.toNat % 64) else none

/-- Reads `more` continuation bytes after `width` bytes with value `value`, the first of them within
the given range. -/
def continuation (value width low high : Nat) : Nat → List UInt8 → Step
  | 0, _ => .char (Char.ofNat value) width
  | _ + 1, [] => .flaw .truncated width
  | more + 1, b :: rest =>
    match payload? low high b with
    | some p => continuation (value * 64 + p) (width + 1) 0x80 0xBF more rest
    | none => .flaw .badContinuation width

/-- What stands at a byte and the bytes after it. -/
def step (b : UInt8) (rest : List UInt8) : Step :=
  let n := b.toNat
  if n < 0x80 then .char (Char.ofNat n) 1
  else if n < 0xC2 then .flaw .badStart 1
  else if n < 0xE0 then continuation (n % 32) 1 0x80 0xBF 1 rest
  else if n = 0xE0 then continuation 0 1 0xA0 0xBF 2 rest
  else if n = 0xED then continuation 13 1 0x80 0x9F 2 rest
  else if n < 0xF0 then continuation (n % 16) 1 0x80 0xBF 2 rest
  else if n = 0xF0 then continuation 0 1 0x90 0xBF 3 rest
  else if n < 0xF4 then continuation (n % 8) 1 0x80 0xBF 3 rest
  else if n = 0xF4 then continuation 4 1 0x80 0x8F 3 rest
  else .flaw .badStart 1

/-- The steps through some bytes; the bound on their number is the number of bytes. -/
def steps : Nat → List UInt8 → List Step
  | 0, _ => []
  | _, [] => []
  | bound + 1, b :: rest =>
    let s := step b rest
    s :: steps bound ((b :: rest).drop s.width)

/-- Where and why bytes are not text. -/
structure Error where
  flaw : Flaw
  position : Nat
  bytes : List UInt8
  deriving Repr, DecidableEq

/-- The reason for a flaw in words. -/
def Flaw.message : Flaw → String
  | .badStart => "invalid start byte"
  | .badContinuation => "invalid continuation byte"
  | .truncated => "unexpected end of data"

/-- The flaw in words, with its bytes and their position. -/
def Error.message (e : Error) : String :=
  let place := match e.bytes with
    | [b] => "byte 0x" ++ String.ofList (Text.hex 2 b.toNat) ++ " in position " ++
      toString e.position
    | bs => "bytes in position " ++ toString e.position ++ "-" ++
      toString (e.position + bs.length - 1)
  "'utf-8' codec can't decode " ++ place ++ ": " ++ e.flaw.message

/-- The text of some steps, or the first flaw among them. -/
def collect (bytes : List UInt8) (position : Nat) : List Step → Except Error (List Char)
  | [] => .ok []
  | .char c w :: rest => do return Text.ofUnit c.toNat ++ (← collect bytes (position + w) rest)
  | .flaw f w :: _ => .error ⟨f, position, (bytes.drop position).take w⟩

/-- Reads bytes as text; the first flaw is an error. -/
def decode (bytes : List UInt8) : Except Error String :=
  (collect bytes 0 (steps bytes.length bytes)).map String.ofList

/-- Reads bytes as text; each flaw becomes one replacement character. -/
def decodeLossy (bytes : List UInt8) : String :=
  String.ofList <| (steps bytes.length bytes).flatMap fun
    | .char c _ => Text.ofUnit c.toNat
    | .flaw .. => [Char.ofNat 0xFFFD]

/-- The bytes of one code point. -/
def encodeUnit (n : Nat) : List UInt8 :=
  let tail (shift : Nat) : UInt8 := UInt8.ofNat (0x80 + n / shift % 64)
  if n < 0x80 then [UInt8.ofNat n]
  else if n < 0x800 then [UInt8.ofNat (0xC0 + n / 64), tail 1]
  else if n < 0x10000 then [UInt8.ofNat (0xE0 + n / 4096), tail 64, tail 1]
  else [UInt8.ofNat (0xF0 + n / 262144), tail 4096, tail 64, tail 1]

/-- The bytes of a text. -/
def encode (s : String) : List UInt8 := (Text.units s.toList).flatMap encodeUnit

/-- Why a text has no bytes: its first run of unpaired surrogates, and where that starts. -/
structure EncodeError where
  position : Nat
  surrogates : List Nat
  deriving Repr, DecidableEq

/-- The error in words. -/
def EncodeError.message (e : EncodeError) : String :=
  let place := match e.surrogates with
    | [u] => "character '\\u" ++ String.ofList (Text.hex 4 u) ++ "' in position " ++
      toString e.position
    | us => "characters in position " ++ toString e.position ++ "-" ++
      toString (e.position + us.length - 1)
  "'utf-8' codec can't encode " ++ place ++ ": surrogates not allowed"

/-- The first run of unpaired surrogates among code points, the first of which has a position. -/
def unencodable? (position : Nat) : List Nat → Option EncodeError
  | [] => none
  | u :: rest =>
    if Text.isSurrogate u then some ⟨position, (u :: rest).takeWhile Text.isSurrogate⟩
    else unencodable? (position + 1) rest

/-- The first run of surrogates among code points that holds none of the halves which stand for bytes
of a name, the first code point at a position. -/
def unnameable? (position : Nat) : List Nat → Option EncodeError
  | [] => none
  | u :: rest =>
    if Text.isSurrogate u && !(0xDC80 ≤ u && u ≤ 0xDCFF) then
      some ⟨position, (u :: rest).takeWhile Text.isSurrogate⟩
    else unnameable? (position + 1) rest

/-- The bytes of a text, if it has bytes. -/
def encode? (s : String) : Except EncodeError (List UInt8) :=
  match unencodable? 0 (Text.units s.toList) with
  | some e => .error e
  | none => .ok (encode s)

end Assay.Utf8
