import Assay.Text.CaseTable
import Assay.Text.Cased

/-!
# Lower and upper case

Case is mapped character by character through the tables; a few characters expand to several. A
capital sigma at the end of a word becomes the final form of the small sigma.
-/

namespace Assay.Text

/-- The shift of the first run that holds a code point. -/
def caseShift? (runs : List CaseRun) (n : Nat) : Option Int :=
  (runs.find? fun (first, last, step, _) => first ≤ n && n ≤ last && (n - first) % step == 0).map
    fun (_, _, _, shift) => shift

/-- The character a shift away. -/
def shifted (c : Char) (d : Int) : Char := Char.ofNat ((c.toNat : Int) + d).toNat

/-- Whether the nearest character that is not skipped distinguishes case. -/
def casedNext (cs : List Char) : Bool :=
  match cs.dropWhile isCaseIgnorable with
  | [] => false
  | c :: _ => isCased c

/-- The lower-case form of one character, between the text before it (reversed) and after it. -/
def lowerChar (before : List Char) (c : Char) (after : List Char) : List Char :=
  if c.toNat < 128 then [c.toLower]
  else if c.toNat == 0x130 then ['i', Char.ofNat 0x307]
  else if c.toNat == 0x3A3 then
    [Char.ofNat (if casedNext before && !casedNext after then 0x3C2 else 0x3C3)]
  else match caseShift? lowerRuns c.toNat with
    | some d => [shifted c d]
    | none => [c]

/-- Lower case of a text whose part before it has been read, in reverse. -/
def lowerFrom (before : List Char) : List Char → List Char
  | [] => []
  | c :: rest => lowerChar before c rest ++ lowerFrom (c :: before) rest

/-- Lower case. -/
def toLower (s : String) : String := String.ofList (lowerFrom [] s.toList)

/-- The upper-case form of one character. -/
def upperChar (c : Char) : List Char :=
  if c.toNat < 128 then [c.toUpper]
  else match upperExpansions.find? (·.1 == c.toNat) with
    | some (_, cs) => cs.map Char.ofNat
    | none => match caseShift? upperRuns c.toNat with
      | some d => [shifted c d]
      | none => [c]

/-- Upper case. -/
def toUpper (s : String) : String := String.ofList (s.toList.flatMap upperChar)

end Assay.Text
