/-!
# Base64

Four digits stand for three bytes. Characters that are no digits are passed over, and an equals sign
ends the text where enough digits and equals signs of a group of four have been read.
-/

namespace Assay.Base64

/-- The value of a digit. -/
def digit? (c : Char) : Option Nat :=
  if 'A' ≤ c && c ≤ 'Z' then some (c.toNat - 65)
  else if 'a' ≤ c && c ≤ 'z' then some (c.toNat - 71)
  else if '0' ≤ c && c ≤ '9' then some (c.toNat + 4)
  else if c == '+' then some 62
  else if c == '/' then some 63
  else none

/-- The bytes of a text from a place in a group of four on: `left` holds the bits of the last digit
that are in no byte yet, and `pads` counts the equals signs since. -/
def bytesFrom (place left pads : Nat) : List Char → Option (List UInt8)
  | [] => if place = 0 then some [] else none
  | '=' :: rest =>
    if place < 2 then bytesFrom place left pads rest
    else if 4 ≤ place + pads + 1 then some []
    else bytesFrom place left (pads + 1) rest
  | c :: rest =>
    match digit? c with
    | none => bytesFrom place left pads rest
    | some d =>
      match place with
      | 0 => bytesFrom 1 d 0 rest
      | 1 => (bytesFrom 2 (d % 16) 0 rest).map (UInt8.ofNat (left * 4 + d / 16) :: ·)
      | 2 => (bytesFrom 3 (d % 4) 0 rest).map (UInt8.ofNat (left * 16 + d / 4) :: ·)
      | _ => (bytesFrom 0 0 0 rest).map (UInt8.ofNat (left * 64 + d) :: ·)

/-- The bytes of a text, if its last group is complete. -/
def decode? (cs : List Char) : Option (List UInt8) := bytesFrom 0 0 0 cs

end Assay.Base64
