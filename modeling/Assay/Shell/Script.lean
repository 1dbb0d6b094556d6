import Assay.Shell.Words

/-!
# Scripts

A script is a sequence of commands, joined by line ends, semicolons, `&&`, `||` and pipes. The words
of a command may be quoted, may name the parameters of the script, and may be followed by
redirections of its streams. Parameters never change while a script runs, so they are put in place
while the script is read.
-/

namespace Assay.Shell

/-- How a command follows the one before it. -/
inductive Joint where
  | always
  | ifOk
  | ifFailed
  /-- It reads what the one before it writes. -/
  | piped
  deriving Repr, DecidableEq

/-- What a redirection does to a stream. -/
inductive Redirection where
  | create
  | append
  | input
  /-- The stream goes where another one goes. -/
  | same
  deriving Repr, DecidableEq

/-- A token of a script. -/
inductive Token where
  | word (text : String)
  | redirect (stream : Nat) (kind : Redirection)
  | joint (j : Joint)
  deriving Repr, DecidableEq

/-- A command: its words, its redirections in order, and how it follows the one before it. -/
structure Command where
  joint : Joint
  words : List String
  redirections : List (Nat × Redirection × String)
  deriving Repr, DecidableEq

/-! ## Tokens -/

/-- Where the reader of a script stands. -/
inductive Place where
  | bare
  | single
  | double
  | escaped
  | doubleEscaped
  /-- After a dollar sign. -/
  | dollar (inDouble : Bool)
  /-- In the name of a parameter, read in reverse. -/
  | name (inDouble : Bool) (soFar : List Char)
  /-- In the name of a parameter between braces, read in reverse. -/
  | braced (inDouble : Bool) (soFar : List Char)
  /-- After a greater-than sign. -/
  | greater (stream : Nat)
  | less
  | ampersand
  | bar
  | comment
  deriving Repr, DecidableEq

/-- What has been read of a script. -/
structure Reading where
  place : Place
  /-- The word being read, in reverse, if one has begun. -/
  word : Option (List Char)
  /-- The tokens before it, in reverse. -/
  tokens : List Token
  deriving Repr

namespace Reading

/-- Nothing read yet. -/
def start : Reading := ⟨.bare, none, []⟩

/-- Ends the word being read. -/
def flush (r : Reading) : Reading :=
  match r.word with
  | some w => { r with word := none, tokens := .word (String.ofList w.reverse) :: r.tokens }
  | none => r

/-- Adds a character to the word. -/
def push (r : Reading) (c : Char) : Reading := { r with word := some (c :: r.word.getD []) }

/-- A word has begun, even if nothing is added to it. -/
def startWord (r : Reading) : Reading := { r with word := some (r.word.getD []) }

/-- Goes on at another place. -/
def goTo (p : Place) (r : Reading) : Reading := { r with place := p }

/-- Adds a token after the word. -/
def emit (t : Token) (r : Reading) : Reading :=
  let r := r.flush
  { r with tokens := t :: r.tokens }

/-- Adds the value of a parameter: as it is between double quotes, cut at blanks elsewhere. -/
def insert (inDouble : Bool) (value : String) (r : Reading) : Reading :=
  if inDouble then value.toList.foldl push r.startWord
  else value.toList.foldl (fun r c => if isGap c then r.flush else r.push c) r

/-- Adds values as words of their own. -/
def insertAll (inDouble : Bool) (r : Reading) : List String → Reading
  | [] => r
  | [v] => r.insert inDouble v
  | v :: rest => insertAll inDouble (r.insert inDouble v).flush rest

/-- The place that a parameter stands at. -/
def home (inDouble : Bool) : Place := if inDouble then .double else .bare

/-- What stands for the number of the running process. -/
def processNumber : String := "4242"

/-- Adds the value of a named parameter. Only the arguments of a script have values. -/
def parameter (args : List String) (inDouble : Bool) (name : List Char) (r : Reading) : Reading :=
  let r := r.goTo (home inDouble)
  if name = ['@'] ∨ name = ['*'] then insertAll inDouble r (args.drop 1)
  else if name = ['$'] then r.insert inDouble processNumber
  else if name = ['#'] then r.insert inDouble (toString (args.length - 1))
  else if !name.isEmpty && name.all Char.isDigit then
    r.insert inDouble (args.getD ((String.ofList name).toNat?.getD 0) "")
  else if inDouble then r.startWord else r

/-- A letter, a digit or an underscore. -/
def isNameChar (c : Char) : Bool := c.isAlphanum || c == '_'

/-- A parameter that is named by one character. -/
def isSpecial (c : Char) : Bool :=
  c.isDigit || c == '$' || c == '#' || c == '@' || c == '*' || c == '?' || c == '!' || c == '-'

/-- Reads a character outside quotes. -/
def stepBare (r : Reading) (c : Char) : Reading :=
  if c = '\'' then r.startWord.goTo .single
  else if c = '"' then r.startWord.goTo .double
  else if c = '\\' then r.goTo .escaped
  else if c = '$' then r.goTo (.dollar false)
  else if c = ' ' ∨ c = '\t' then r.flush
  else if c = '\n' ∨ c = ';' then r.emit (.joint .always)
  else if c = '&' then r.goTo .ampersand
  else if c = '|' then r.goTo .bar
  else if c = '<' then r.flush.goTo .less
  else if c = '>' then
    match r.word with
    | some [d] =>
      if d.isDigit then { r with word := none, place := .greater (d.toNat - 48) }
      else r.flush.goTo (.greater 1)
    | _ => r.flush.goTo (.greater 1)
  else if c = '#' ∧ r.word.isNone then r.goTo .comment
  else r.push c

/-- Reads a character between double quotes. -/
def stepDouble (r : Reading) (c : Char) : Reading :=
  if c = '"' then r.goTo .bare
  else if c = '\\' then r.goTo .doubleEscaped
  else if c = '$' then r.goTo (.dollar true)
  else r.push c

/-- Reads a character where a parameter may stand. -/
def stepHome (inDouble : Bool) (r : Reading) (c : Char) : Reading :=
  if inDouble then r.stepDouble c else r.stepBare c

/-- Reads a character of a script with arguments. -/
def step (args : List String) (r : Reading) (c : Char) : Reading :=
  match r.place with
  | .bare => r.stepBare c
  | .single => if c = '\'' then r.goTo .bare else r.push c
  | .double => r.stepDouble c
  | .escaped => if c = '\n' then r.goTo .bare else (r.push c).goTo .bare
  | .doubleEscaped =>
    if c = '$' ∨ c = '\x60' ∨ c = '"' ∨ c = '\\' then (r.push c).goTo .double
    else if c = '\n' then r.goTo .double
    else ((r.push '\\').push c).goTo .double
  | .dollar d =>
    if c = '\x7b' then r.goTo (.braced d [])
    else if isSpecial c then parameter args d [c] r
    else if isNameChar c then r.goTo (.name d [c])
    else ((r.push '$').goTo (home d)).stepHome d c
  | .name d soFar =>
    if isNameChar c then r.goTo (.name d (c :: soFar))
    else (parameter args d soFar.reverse r).stepHome d c
  | .braced d soFar =>
    if c = '\x7d' then parameter args d soFar.reverse r else r.goTo (.braced d (c :: soFar))
  | .greater s =>
    if c = '>' then (r.emit (.redirect s .append)).goTo .bare
    else if c = '&' then (r.emit (.redirect s .same)).goTo .bare
    else ((r.emit (.redirect s .create)).goTo .bare).stepBare c
  | .less => ((r.emit (.redirect 0 .input)).goTo .bare).stepBare c
  | .ampersand =>
    if c = '&' then (r.emit (.joint .ifOk)).goTo .bare
    else ((r.emit (.joint .always)).goTo .bare).stepBare c
  | .bar =>
    if c = '|' then (r.emit (.joint .ifFailed)).goTo .bare
    else ((r.emit (.joint .piped)).goTo .bare).stepBare c
  | .comment => if c = '\n' then (r.emit (.joint .always)).goTo .bare else r

/-- The tokens of a script that has been read; none if a quotation is open. -/
def finish (args : List String) (r : Reading) : Option (List Token) :=
  match r.place with
  | .single | .double | .doubleEscaped | .braced .. | .dollar true | .name true _ => none
  | .dollar false => some (r.push '$').flush.tokens.reverse
  | .name false soFar => some (parameter args false soFar.reverse r).flush.tokens.reverse
  | _ => some r.flush.tokens.reverse

end Reading

/-- The tokens of a script with arguments; none if a quotation is open. -/
def tokens? (args : List String) (script : String) : Option (List Token) :=
  (script.toList.foldl (Reading.step args) .start).finish args

/-! ## Commands -/

/-- A command without words. -/
def Command.empty (j : Joint) : Command := ⟨j, [], []⟩

/-- Whether a command says nothing. -/
def Command.isEmpty (c : Command) : Bool := c.words.isEmpty && c.redirections.isEmpty

/-- The commands of tokens, of which one has been read up to `current`. -/
def commandsFrom (current : Command) : List Token → List Command
  | [] => if current.isEmpty then [] else [current]
  | .joint j :: rest =>
    if current.isEmpty then
      commandsFrom (.empty (if j = .always then current.joint else j)) rest
    else current :: commandsFrom (.empty j) rest
  | .redirect s kind :: .word w :: rest =>
    commandsFrom { current with redirections := current.redirections ++ [(s, kind, w)] } rest
  | .redirect .. :: rest => commandsFrom current rest
  | .word w :: rest => commandsFrom { current with words := current.words ++ [w] } rest

/-- The commands of a script with arguments; none if a quotation is open. -/
def commands? (args : List String) (script : String) : Option (List Command) :=
  (tokens? args script).map (commandsFrom (.empty .always))

end Assay.Shell
