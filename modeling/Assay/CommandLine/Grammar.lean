import Assay.Fault

/-!
# Options and arguments

What a command takes: options, by their names, and at most one argument of its own or the name of a
command that takes the rest. Every word of a command line is put into a class before any is read:
two dashes alone end the options, a word that begins with a dash is an option, unless it is a
number or holds a blank, and all else is a plain word. An option may be shortened as long as one
option alone begins so.
-/

namespace Assay.CommandLine

/-- What an option does. -/
inductive Action where
  | help
  | version
  /-- It may be repeated and says nothing more. -/
  | count
  | flag
  | text
  | integer
  | number
  deriving Repr, DecidableEq

/-- Whether an option takes a value. -/
def Action.takesValue : Action → Bool
  | .text | .integer | .number => true
  | _ => false

/-- An option. -/
structure Flag where
  names : List String
  action : Action
  required : Bool
  deriving Repr, DecidableEq

/-- An option as messages name it. -/
def Flag.label (f : Flag) : String := "/".intercalate f.names

/-- The option with a value of some kind that may be left out. -/
def Flag.optional (name : String) (action : Action) : Flag := ⟨[name], action, false⟩

/-- The option with a text that must be given. -/
def Flag.needed (name : String) : Flag := ⟨[name], .text, true⟩

/-- What may stand besides options. -/
inductive Positional where
  | one (label : String)
  /-- The name of a command, which takes everything after it. -/
  | command (label : String) (choices : List String)
  deriving Repr, DecidableEq

/-- An argument as messages name it. -/
def Positional.label : Positional → String
  | .one label => label
  | .command label _ => label

/-- Everything that a command takes. -/
structure Grammar where
  program : String
  flags : List Flag
  positional : Option Positional
  deriving Repr, DecidableEq

/-- What ends the reading of a command line before its end. -/
inductive Halt where
  | usage (program message : String)
  | help (program : String)
  | version
  deriving Repr, DecidableEq

namespace Grammar

/-- Every name of an option, with the option, in order. -/
def names (g : Grammar) : List (String × Flag) :=
  g.flags.flatMap fun f => f.names.map fun n => (n, f)

/-- The option with a name. -/
def flag? (g : Grammar) (name : String) : Option Flag := g.names.lookup name

/-- A fault of usage. -/
def refuse (g : Grammar) (message : String) : Except Halt α := .error (.usage g.program message)

/-- A fault of one option. -/
def refuseFlag (g : Grammar) (f : Flag) (message : String) : Except Halt α :=
  g.refuse ("argument " ++ f.label ++ ": " ++ message)

end Grammar

/-- A word that is an option: the option and its name, if it is known, and a value given in the same
word, with whether an equals sign stands before it. -/
structure Marked where
  text : String
  known : Option (String × Flag)
  value : Option (Bool × List Char)
  deriving Repr, DecidableEq

/-- The class of a word. -/
inductive Part where
  | dashes
  | word (text : String)
  | option (m : Marked)
  deriving Repr, DecidableEq

/-- The word itself. -/
def Part.text : Part → String
  | .dashes => "--"
  | .word t => t
  | .option m => m.text

namespace Grammar

/-- Digits, perhaps with a point before the last of them, after a dash. -/
def isNegativeNumber (cs : List Char) : Bool :=
  match cs with
  | '-' :: body =>
    let whole := body.takeWhile Text.isDecimal
    let rest := body.dropWhile Text.isDecimal
    let ends (r : List Char) : Bool := r.isEmpty || r == ['\n']
    (!whole.isEmpty && ends rest) ||
      (match rest with
       | '.' :: fraction =>
         !(fraction.takeWhile Text.isDecimal).isEmpty && ends (fraction.dropWhile Text.isDecimal)
       | _ => false)
  | _ => false

/-- A text cut at its first equals sign, if it has one. -/
def cutAtEquals (cs : List Char) : List Char × Option (List Char) :=
  match cs.dropWhile (· != '=') with
  | [] => (cs, none)
  | _ :: value => (cs.takeWhile (· != '='), some value)

/-- The options that a word with two dashes may be short for. -/
def longMatches (g : Grammar) (cs : List Char) : List Marked :=
  let (start, value) := cutAtEquals cs
  (g.names.filter fun (n, _) => start.isPrefixOf n.toList).map fun known =>
    ⟨String.ofList cs, some known, value.map fun v => (true, v)⟩

/-- The options that a word with one dash may be short for or may begin with. -/
def shortMatches (g : Grammar) (cs : List Char) : List Marked :=
  g.names.filterMap fun known =>
    if known.1.toList = cs.take 2 then
      some ⟨String.ofList cs, some known, some (false, cs.drop 2)⟩
    else if cs.isPrefixOf known.1.toList then some ⟨String.ofList cs, some known, none⟩
    else none

/-- The options that a word may stand for without being the name of one. -/
def nearMatches (g : Grammar) (cs : List Char) : List Marked :=
  if cs.take 2 = ['-', '-'] then g.longMatches cs else g.shortMatches cs

/-- A word whose part before an equals sign is the name of an option. -/
def exactWithValue (g : Grammar) (cs : List Char) : Option Marked :=
  match cutAtEquals cs with
  | (name, some value) =>
    (g.flag? (String.ofList name)).map fun f =>
      ⟨String.ofList cs, some (String.ofList name, f), some (true, value)⟩
  | _ => none

/-- The class of a word before two dashes alone. -/
def classOf (g : Grammar) (text : String) : Except Halt Part :=
  let cs := text.toList
  if cs.head? ≠ some '-' then .ok (.word text)
  else match g.flag? text with
    | some f => .ok (.option ⟨text, some (text, f), none⟩)
    | none =>
      if cs.length = 1 then .ok (.word text)
      else match g.exactWithValue cs, g.nearMatches cs with
        | some m, _ => .ok (.option m)
        | none, [m] => .ok (.option m)
        | none, [] =>
          if isNegativeNumber cs || cs.contains ' ' then .ok (.word text)
          else .ok (.option ⟨text, none, none⟩)
        | none, ms =>
          g.refuse ("ambiguous option: " ++ text ++ " could match " ++
            ", ".intercalate (ms.filterMap fun m => m.known.map (·.1)))

/-- The classes of the words of a command line. -/
def parts (g : Grammar) : List String → Except Halt (List Part)
  | [] => .ok []
  | text :: rest =>
    if text = "--" then .ok (.dashes :: rest.map .word)
    else do return (← g.classOf text) :: (← parts g rest)

end Grammar

end Assay.CommandLine
