import Assay.Proofs.JsonTokens
import Assay.Proofs.Refusals
import Assay.Proofs.TextParts
import Assay.Tool.Compiler

/-!
# Reading back the line of a diagnostic

A compiler prints what it says about a line of a file as `path:line:column: level: message [rule]`. A message may
hold colons, levels and brackets of its own, and the reader takes the shortest message behind which a rule ends the
line. Only the last opening bracket of a line starts such a rule (`ruleEnd?_eq_some_iff`), so the reader finds none
before the message is over (`ruleEnd?_before_rule`), and the parts it finds are those that were printed
(`diagnostic?_text`). Two statements are therefore never printed as the same line (`IsPlain.eq_of_text_eq`).
-/

namespace Assay

namespace Numeral

variable {n : ℕ}

/-- The digits of a number are read to their end, and stand for it. -/
theorem digitRun_nat : ∃ ds, digitRun true (toString n).toList = (ds, true, []) ∧
    ds.length = (toString n).length ∧ ofDigits ds = n := by
  obtain ⟨ds, hrun, hvalues⟩ := digitRun_of_isDecimal _ true Text.toList_nat_ne (Text.isDecimal_nat (n := n))
  have hds : (toString n).toList.map (fun c => c.toNat - 48) = ds := by
    refine List.map_injective_iff.2 (Option.some_injective ℕ) ?_
    rw [← hvalues, List.map_map]
    exact List.map_congr_left fun c hc => (Text.digitValue?_of_isDigit (Text.isDigit_nat c hc)).symm
  refine ⟨ds, hrun, by rw [← hds, List.length_map, String.length_toList], ?_⟩
  rw [← hds, Text.toList_nat, ofDigits, List.foldl_map]
  exact Json.numberOf_toDigits

/-- A number is read back from its digits, if there are not too many. -/
theorem readInt_nat (h : (toString n).length ≤ maxDigits) : readInt (toString n) = .ok n := by
  have hlike : Text.isAllDigits (toString n).toList = true := by
    rw [Text.isAllDigits, List.isEmpty_eq_false_iff.2 Text.toList_nat_ne, Bool.not_false, Bool.true_and, List.all_eq_true]
    exact fun c hc => by rw [Text.isDigitLike, Text.isDecimal_nat c hc, Bool.true_or]
  obtain ⟨ds, hrun, hlength, hvalue⟩ := digitRun_nat (n := n)
  have hlong : ¬ maxDigits < ds.length := by omega
  have hempty : ds.isEmpty = false := by
    rw [List.isEmpty_eq_false_iff, ← List.length_pos_iff, hlength, ← String.length_toList]
    exact List.length_pos_iff.2 Text.toList_nat_ne
  unfold readInt
  simp only [sign_of_isAllDigits hlike, hrun]
  simp [hlong, hempty, hvalue]

end Numeral

namespace Compiler

open ToolRecord

/-! ## What is printed -/

/-- What a compiler says about a line of a file. -/
@[ext] structure Statement where
  file : String
  line : ℕ
  column : Option ℕ
  level : String
  message : String
  rule : String
  deriving Repr, DecidableEq

/-- The levels of what is said about a line. -/
abbrev levels : List String := ["fatal error", "error", "warning", "remark"]

/-- Some text on one line, without blanks at its ends. -/
structure IsPhrase (s : String) : Prop where
  ne : s ≠ ""
  line : ∀ c ∈ s.toList, Text.isLineEnd c = false
  trimmed : Text.strip s = s

namespace Statement

/-- The column as it stands behind the line. -/
def columnText (s : Statement) : String :=
  match s.column with
  | some n => ":" ++ toString n
  | none => ""

/-- The line that a statement is printed as. -/
def text (s : Statement) : String :=
  s.file ++ ":" ++ toString s.line ++ s.columnText ++ ": " ++ s.level ++ ": " ++ s.message ++ " [" ++ s.rule ++ "]"

/-- The id of the rule: an error made of a warning is that warning. -/
def ruleId (s : Statement) : String :=
  if "-Werror=".toList <+: s.rule.toList then "-W" ++ String.ofList (s.rule.toList.drop "-Werror=".length) else s.rule

/-- A statement whose line shows where each part ends. -/
structure IsPlain (s : Statement) : Prop where
  file : IsPhrase s.file
  colon : ':' ∉ s.file.toList
  /-- A single letter before a colon is a drive. -/
  noDrive : ∀ d, s.file.toList = [d] → d.isAlpha = false
  line : (toString s.line).length < Numeral.maxDigits
  column : ∀ n ∈ s.column, (toString n).length < Numeral.maxDigits
  level : s.level ∈ levels
  message : IsPhrase s.message
  rule : IsPhrase s.rule
  brackets : ∀ c ∈ s.rule.toList, c ≠ '[' ∧ c ≠ ']' ∧ c ≠ ','

end Statement

namespace IsPhrase

variable {s : String}

theorem toList_ne (h : IsPhrase s) : s.toList ≠ [] := fun hnil => h.ne (String.toList_inj.1 hnil)

theorem trim_eq (h : IsPhrase s) : Text.trim s.toList = s.toList := by
  have htrimmed := congrArg String.toList h.trimmed
  rwa [Text.strip, String.toList_ofList] at htrimmed

theorem head_not_blank (h : IsPhrase s) : ∀ c, s.toList.head? = some c → Text.isBlank c = false :=
  Text.trimStart_eq_self_iff.1 (Text.trim_eq_self_iff.1 h.trim_eq).1

theorem last_not_blank (h : IsPhrase s) : ∀ c, s.toList.getLast? = some c → Text.isBlank c = false :=
  Text.trimEnd_eq_self_iff.1 (Text.trim_eq_self_iff.1 h.trim_eq).2

theorem ne_newline (h : IsPhrase s) : ∀ c ∈ s.toList, c ≠ '\n' := by
  rintro _ hc rfl
  exact absurd (h.line _ hc) (by decide)

end IsPhrase

/-! ## Words, paths and positions -/

variable {cs rest rule message : List Char}

theorem after?_eq_some_iff {word : String} : after? word cs = some rest ↔ cs = word.toList ++ rest := by
  unfold after?
  split
  next hword =>
    obtain ⟨more, rfl⟩ := List.isPrefixOf_iff_prefix.1 hword
    rw [← String.length_toList, List.drop_left, Option.some.injEq, List.append_cancel_left_eq]
  next hword =>
    simp only [reduceCtorEq, false_iff]
    rintro rfl
    exact hword (List.isPrefixOf_iff_prefix.2 (List.prefix_append ..))

theorem after?_append {word : String} : after? word (word.toList ++ rest) = some rest := after?_eq_some_iff.2 rfl

theorem plainPath?_append (hne : cs ≠ []) (h : ∀ c ∈ cs, c ≠ ':' ∧ c ≠ '\n') :
    plainPath? (cs ++ ':' :: rest) = some (cs, rest) := by
  have hrun : ∀ c ∈ cs, isPathChar c = true := fun c hc => by simp [isPathChar, h c hc]
  have hspan : (cs ++ ':' :: rest).span isPathChar = (cs, ':' :: rest) :=
    Text.span_append hrun fun c hc => by
      cases hc
      decide
  have hcolon : after? ":" (':' :: rest) = some rest := after?_append
  rw [plainPath?, hspan]
  simp [hcolon, hne]

/-- A path without a colon is read as it is, unless it is the letter of a drive. -/
theorem paths_append (hne : cs ≠ []) (h : ∀ c ∈ cs, c ≠ ':' ∧ c ≠ '\n')
    (hdrive : ∀ d, cs = [d] → d.isAlpha = false) : paths (cs ++ ':' :: rest) = [(cs, rest)] := by
  have hnone : drivePath? (cs ++ ':' :: rest) = none := by
    match cs, hne with
    | [d], _ => simp [drivePath?, hdrive d rfl]
    | d :: e :: cs, _ =>
      have he : e ≠ ':' := (h e (by simp)).1
      simp [drivePath?, he]
  rw [paths, hnone, plainPath?_append hne h]
  rfl

/-- A number is read as the position that it stands for, up to the colon behind it. -/
theorem position?_nat (n : ℕ) : position? ((toString n).toList ++ ':' :: rest) = some ((toString n).toList, rest) := by
  have hspan : ((toString n).toList ++ ':' :: rest).span Text.isDecimal = ((toString n).toList, ':' :: rest) :=
    Text.span_append Text.isDecimal_nat fun c hc => by
      cases hc
      decide
  have hcolon : after? ":" (':' :: rest) = some rest := after?_append
  rw [position?, digits?, hspan]
  simp only [List.isEmpty_iff, Text.toList_nat_ne, if_false, hcolon, bind, Option.bind, pure]

theorem position?_space : position? (' ' :: cs) = none := by
  have hspace : Text.isDecimal ' ' = false := by decide
  simp [position?, digits?, List.span_eq_takeWhile_dropWhile, hspace]

/-! ## Message and rule -/

/-- What follows the blanks in front of a text, of which there must be one. -/
theorem afterBlanks?_eq_some_iff : afterBlanks? cs = some rest ↔ ∃ blanks, blanks ≠ [] ∧
    Text.isAllBlank blanks = true ∧ (∀ c, rest.head? = some c → Text.isBlank c = false) ∧ cs = blanks ++ rest := by
  unfold afterBlanks? skipBlanks
  constructor
  · intro h
    obtain ⟨hhead, hrest⟩ := Option.ite_none_right_eq_some.1 h
    cases hrest
    refine ⟨cs.takeWhile Text.isBlank, ?_, List.all_takeWhile, fun c hc => ?_, List.takeWhile_append_dropWhile.symm⟩
    · cases cs with
      | nil => cases hhead
      | cons c cs =>
        have hc : Text.isBlank c = true := hhead
        simp [hc]
    · have hstop := List.head?_dropWhile_not Text.isBlank cs
      rw [hc] at hstop
      simpa using hstop
  · rintro ⟨blanks, hne, hblank, hstop, rfl⟩
    have hhead : (blanks ++ rest).head?.any Text.isBlank = true := by
      cases blanks with
      | nil => exact absurd rfl hne
      | cons c blanks => exact List.all_eq_true.1 hblank c (List.mem_cons_self ..)
    rw [if_pos hhead, List.dropWhile_append_of_pos (List.all_eq_true.1 hblank), Text.dropWhile_eq_self_iff.2 hstop]

/-- A rule ends a line exactly if the line is blanks, an opening bracket, the rule and a closing bracket with at most
blanks behind it. -/
theorem ruleEnd?_eq_some_iff : ruleEnd? cs = some rule ↔ ∃ before after, before ≠ [] ∧ Text.isAllBlank before = true ∧
    rule ≠ [] ∧ (∀ c ∈ rule, c ≠ '[' ∧ c ≠ ']') ∧ Text.isAllBlank after = true ∧
      cs = before ++ '[' :: (rule ++ ']' :: after) := by
  constructor
  · intro h
    simp only [ruleEnd?, Option.bind_eq_bind, Option.bind_eq_some_iff] at h
    obtain ⟨opened, hblanks, inside, hopen, after, hclose, h⟩ := h
    obtain ⟨hend, h⟩ := Option.ite_none_right_eq_some.1 h
    cases h
    obtain ⟨before, hne, hbefore, -, rfl⟩ := afterBlanks?_eq_some_iff.1 hblanks
    cases after?_eq_some_iff.1 hopen
    have hrest := after?_eq_some_iff.1 hclose
    simp only [List.span_eq_takeWhile_dropWhile, Bool.and_eq_true, Bool.not_eq_true', List.isEmpty_eq_false_iff]
      at hrest hend ⊢
    refine ⟨before, after, hne, hbefore, hend.1, fun c hc => by simpa using List.mem_takeWhile_imp hc, hend.2, ?_⟩
    have hinside := List.takeWhile_append_dropWhile (p := fun c => c != '[' && c != ']') (l := inside)
    rw [hrest] at hinside
    exact congrArg (fun inside => before ++ '[' :: inside) hinside.symm
  · rintro ⟨before, after, hne, hbefore, hrule, hchars, hafter, rfl⟩
    have hblanks : afterBlanks? (before ++ '[' :: (rule ++ ']' :: after)) = some ('[' :: (rule ++ ']' :: after)) :=
      afterBlanks?_eq_some_iff.2 ⟨before, hne, hbefore, by rintro _ ⟨⟩; decide, rfl⟩
    have hopen : after? "[" ('[' :: (rule ++ ']' :: after)) = some (rule ++ ']' :: after) := after?_append
    have hspan : (rule ++ ']' :: after).span (fun c => c != '[' && c != ']') = (rule, ']' :: after) :=
      Text.span_append (fun c hc => by simp [hchars c hc]) (by rintro _ ⟨⟩; rfl)
    have hclose : after? "]" (']' :: after) = some after := after?_append
    simp only [ruleEnd?, hblanks, hopen, hspan, hclose, Option.bind_eq_bind, Option.bind_some]
    simp [hrule, hafter]

/-- Two texts that split at the last of the same characters are the same on both sides of it. -/
theorem eq_of_append_cons_eq {c : Char} {as bs as' bs' : List Char} (hbs : c ∉ bs) (hbs' : c ∉ bs')
    (h : as ++ c :: bs = as' ++ c :: bs') : as = as' ∧ bs = bs' := by
  rcases List.append_eq_append_iff.1 h with ⟨mid, rfl, hmid⟩ | ⟨mid, rfl, hmid⟩
  · cases mid with
    | nil => simpa using hmid
    | cons d mid =>
      obtain ⟨-, rfl⟩ := List.cons.inj hmid
      simp at hbs
  · cases mid with
    | nil => simpa using hmid.symm
    | cons d mid =>
      obtain ⟨-, rfl⟩ := List.cons.inj hmid
      simp at hbs'

/-- What is printed behind a message. -/
def ruleText (rule : List Char) : List Char := ' ' :: '[' :: (rule ++ [']'])

section
variable (hrule : rule ≠ []) (hchars : ∀ c ∈ rule, c ≠ '[' ∧ c ≠ ']')

include hrule hchars in
theorem ruleEnd?_ruleText : ruleEnd? (ruleText rule) = some rule :=
  ruleEnd?_eq_some_iff.2 ⟨[' '], [], by simp, by decide, hrule, hchars, rfl, rfl⟩

include hchars in
/-- No rule ends the line before the message is over: its bracket would be the last one of the line, and what is
left of the message would be blank. -/
theorem ruleEnd?_before_rule (hne : message ≠ []) (hlast : ∀ c, message.getLast? = some c → Text.isBlank c = false) :
    ruleEnd? (message ++ ruleText rule) = none := by
  refine Option.eq_none_iff_forall_ne_some.2 fun other hother => ?_
  obtain ⟨before, after, -, hbefore, -, hother, hafter, heq⟩ := ruleEnd?_eq_some_iff.1 hother
  have hbs : '[' ∉ rule ++ [']'] := by
    simp only [List.mem_append, List.mem_singleton, Char.reduceEq, or_false]
    exact fun hmem => (hchars _ hmem).1 rfl
  have hbs' : '[' ∉ other ++ ']' :: after := by
    simp only [List.mem_append, List.mem_cons, Char.reduceEq, false_or, not_or]
    exact ⟨fun hmem => (hother _ hmem).1 rfl, fun hmem => absurd (List.all_eq_true.1 hafter _ hmem) (by decide)⟩
  have hleft : message ++ [' '] = before := by
    refine (eq_of_append_cons_eq hbs hbs' ?_).1
    rw [← heq, ruleText, List.append_assoc, List.singleton_append]
  have hblank : Text.isBlank (message.getLast hne) = true :=
    List.all_eq_true.1 hbefore _ (hleft ▸ List.mem_append_left _ (List.getLast_mem hne))
  rw [hlast _ (List.getLast?_eq_some_getLast hne)] at hblank
  cases hblank

include hrule hchars in
/-- The shortest message that a rule follows is the whole message. -/
theorem messageFrom?_append : ∀ {read message : List Char}, (∀ c ∈ message, c ≠ '\n') →
    (∀ c, message.getLast? = some c → Text.isBlank c = false) →
    messageFrom? read (message ++ ruleText rule) = some (read.reverse ++ message, some rule)
  | read, [], _, _ => by
    rw [List.nil_append, messageFrom?.eq_def, ruleEnd?_ruleText hrule hchars, List.append_nil]
  | read, c :: message, hline, hlast => by
    have hnone := ruleEnd?_before_rule hchars (List.cons_ne_nil c message) hlast
    have hblank : Text.isAllBlank (c :: message ++ ruleText rule) = false := by
      refine List.all_eq_false.2 ⟨'[', ?_, by decide⟩
      simp [ruleText]
    have hrest : messageFrom? (c :: read) (message ++ ruleText rule) =
        some (read.reverse ++ c :: message, some rule) := by
      rw [messageFrom?_append (fun d hd => hline d (List.mem_cons_of_mem _ hd))
        (fun d hd => hlast d (by simp [List.getLast?_cons, hd])), List.reverse_cons, List.append_assoc,
        List.singleton_append]
    rw [messageFrom?.eq_def, hnone, hblank]
    simp only [List.cons_append, if_neg (hline c (List.mem_cons_self ..)), Bool.false_eq_true, if_false]
    exact hrest

include hrule hchars in
theorem message?_append (hne : message ≠ []) (hline : ∀ c ∈ message, c ≠ '\n')
    (hhead : ∀ c, message.head? = some c → Text.isBlank c = false)
    (hlast : ∀ c, message.getLast? = some c → Text.isBlank c = false) :
    message? (' ' :: (message ++ ruleText rule)) = some (message, some rule) := by
  have hspan : (' ' :: (message ++ ruleText rule)).span Text.isBlank = ([' '], message ++ ruleText rule) := by
    have hblank : ∀ c ∈ [' '], Text.isBlank c = true := by simp [Text.isBlank]
    have hstop : ∀ c, (message ++ ruleText rule).head? = some c → Text.isBlank c = false := fun c hc => hhead c <| by
      rwa [List.head?_append_of_ne_nil _ hne] at hc
    exact Text.span_append hblank hstop
  have hread : messageFrom? [] (message ++ ruleText rule) = some (message, some rule) :=
    messageFrom?_append hrule hchars hline hlast
  rw [message?, hspan]
  simp only [List.length_singleton, messageAfter?, List.drop_succ_cons, List.drop_nil, List.nil_append, hread]

end

/-! ## The whole line -/

/-- A level is read up to its colon; no level starts with another. -/
theorem level?_append {level : String} (h : level ∈ levels) :
    level? levels (skipBlanks (' ' :: (level.toList ++ ':' :: rest))) = some (level, rest) := by
  simp only [levels, List.mem_cons, List.not_mem_nil, or_false] at h
  rcases h with rfl | rfl | rfl | rfl <;> rfl

namespace Statement

variable {s t : Statement}

/-- The parts of a line as they are written. -/
def parts (s : Statement) : Diagnostic where
  file := s.file.toList
  line := some (toString s.line).toList
  column := s.column.map fun n => (toString n).toList
  level := s.level
  message := s.message.toList
  rule := some s.rule.toList

/-- What is printed behind the place: level, message and rule. -/
def levelText (s : Statement) : List Char :=
  ' ' :: (s.level.toList ++ ':' :: ' ' :: (s.message.toList ++ ruleText s.rule.toList))

theorem toList_text (s : Statement) : s.text.toList =
    s.file.toList ++ ':' :: ((toString s.line).toList ++ (s.columnText.toList ++ ':' :: s.levelText)) := by
  have hcolon : ": ".toList = [':', ' '] := rfl
  have hopen : " [".toList = [' ', '['] := rfl
  simp [text, levelText, ruleText, hcolon, hopen]

theorem position?_levelText : position? s.levelText = none := position?_space

namespace IsPlain

theorem tail?_levelText (h : s.IsPlain) (file : List Char) (line column : Option (List Char)) :
    tail? levels file line column s.levelText =
      some ⟨file, line, column, s.level, s.message.toList, some s.rule.toList⟩ := by
  have hmessage := message?_append h.rule.toList_ne (fun c hc => ⟨(h.brackets c hc).1, (h.brackets c hc).2.1⟩)
    h.message.toList_ne h.message.ne_newline h.message.head_not_blank h.message.last_not_blank
  simp only [tail?, levelText, level?_append h.level, hmessage, bind, Option.bind, pure]

/-- Behind the path stand the line and the column, if there is one, and nothing else that is a position. -/
theorem atLine?_text (h : s.IsPlain) : atLine? s.file.toList
    ((toString s.line).toList ++ (s.columnText.toList ++ ':' :: s.levelText)) = some s.parts := by
  unfold columnText parts
  cases s.column with
  | none =>
    rw [String.toList_empty, List.nil_append]
    simp only [atLine?, position?_nat, position?_levelText, h.tail?_levelText, bind, Option.bind]
    rfl
  | some n =>
    rw [String.toList_append, List.append_assoc]
    change atLine? _ (_ ++ ':' :: ((toString n).toList ++ _)) = _
    simp only [atLine?, position?_nat, h.tail?_levelText, bind, Option.bind]
    rfl

/-- A plain statement is found in its line, in the parts that were printed. -/
theorem diagnostic?_text (h : s.IsPlain) : diagnostic? s.text.toList = some s.parts := by
  have hfile : ∀ c ∈ s.file.toList, c ≠ ':' ∧ c ≠ '\n' := fun c hc =>
    ⟨fun hcolon => h.colon (hcolon ▸ hc), h.file.ne_newline c hc⟩
  rw [diagnostic?, toList_text, paths_append h.file.toList_ne hfile h.noDrive, List.findSome?_singleton]
  simp only [h.atLine?_text]

/-- Two plain statements are never printed as the same line. -/
theorem eq_of_text_eq (hs : s.IsPlain) (ht : t.IsPlain) (h : s.text = t.text) : s = t := by
  have hparts : s.parts = t.parts :=
    Option.some.inj (by rw [← hs.diagnostic?_text, ← ht.diagnostic?_text, h])
  simp only [parts, Diagnostic.mk.injEq, Option.some.injEq, String.toList_inj] at hparts
  obtain ⟨hfile, hline, hcolumn, hlevel, hmessage, hrule⟩ := hparts
  exact Statement.ext hfile (Text.toList_nat_injective (congrArg String.toList hline))
    (Option.map_injective Text.toList_nat_injective hcolumn) hlevel hmessage hrule

end IsPlain

end Statement

/-! ## The finding -/

theorem number?_nat {n : ℕ} (h : (toString n).length < Numeral.maxDigits) :
    number? (some (toString n).toList) = some (n : ℤ) := by
  have hint : intOf? (.text (toString n)) = (Numeral.readInt (Text.strip (toString n))).toOption := rfl
  rw [number?, Option.bind_some, String.ofList_toList, hint, Text.strip, Text.trim_digits Text.isDigit_nat,
    String.ofList_toList, Numeral.readInt_nat h.le]
  rfl

theorem ruleIdOf_rule {s : Statement} (h : s.IsPlain) (level : String) :
    ruleIdOf (some s.rule.toList) level = s.ruleId := by
  have hcomma : ∀ c ∈ s.rule.toList, (c != ',') = true := fun c hc => by simp [(h.brackets c hc).2.2]
  have hfirst : Text.trim (s.rule.toList.takeWhile (· != ',')) = s.rule.toList := by
    rw [List.takeWhile_eq_self_iff.2 hcomma, h.rule.trim_eq]
  unfold ruleIdOf Statement.ruleId
  simp only [hfirst]
  split
  next rest hrest =>
    obtain hrule := after?_eq_some_iff.1 hrest
    rw [if_pos ⟨rest, hrule.symm⟩, hrule]
    rfl
  next hnone =>
    rw [if_neg, String.ofList_toList]
    rintro ⟨rest, hrule⟩
    rw [← hrule, after?_append] at hnone
    cases hnone

/-- The line of a plain statement has no end within it. -/
theorem Statement.IsPlain.no_lineEnd {s : Statement} (h : s.IsPlain) :
    ∀ c ∈ s.text.toList, Text.isLineEnd c = false := by
  have hnat : ∀ n : ℕ, ∀ c ∈ (toString n).toList, Text.isLineEnd c = false := fun n c hc =>
    Text.isLineEnd_of_not_blank (Text.isBlank_of_isDigit (Text.isDigit_nat c hc))
  have hcolumn : ∀ c ∈ s.columnText.toList, Text.isLineEnd c = false := by
    unfold columnText
    cases s.column with
    | none => simp
    | some n =>
      intro c hc
      rcases List.mem_append.1 (String.toList_append ▸ hc) with hc | hc
      · cases List.mem_singleton.1 hc
        rfl
      · exact hnat n c hc
  have hlevels : ∀ level ∈ levels, (level.toList.all fun c => !Text.isLineEnd c) = true := by
    simp only [levels, List.forall_mem_cons]
    exact ⟨rfl, rfl, rfl, rfl, by simp⟩
  intro c hc
  simp only [toList_text, levelText, ruleText, List.mem_append, List.mem_cons, List.not_mem_nil, or_false] at hc
  rcases hc with hc | rfl | hc | hc | rfl | rfl | hc | rfl | rfl | hc | rfl | rfl | hc | rfl
  · exact h.file.line c hc
  · rfl
  · exact hnat _ c hc
  · exact hcolumn c hc
  · rfl
  · rfl
  · simpa using List.all_eq_true.1 (hlevels _ h.level) c hc
  · rfl
  · rfl
  · exact h.message.line c hc
  · rfl
  · rfl
  · exact h.rule.line c hc
  · rfl

/-- What a plain statement is printed as is one record, unless it is taken for a line that is no diagnostic, and the
record is read as the finding that was printed: the file, the line, the column if there is one, the level, the whole
message, and the rule. -/
theorem Statement.read_back (run : ToolRun) (s : Statement) (h : s.IsPlain) (hnoise : isNoise s.text.toList = false) :
    split s.text = [.value (.text s.text)] ∧
      parse run (.text s.text) = .ok {
        tool := run.tool
        toolVersion := run.version
        ruleId := s.ruleId
        file := s.file
        line := some s.line
        column := s.column.map fun n => (n : ℤ)
        message := s.message
        nativeSeverity := some s.level } := by
  constructor
  · have hne : s.text.toList ≠ [] := by
      rw [toList_text]
      simp
    have htrim : Text.trimEnd s.text.toList = s.text.toList := by
      rw [text, String.toList_append]
      exact Text.trimEnd_append (by simp) rfl
    have hblank : Text.isAllBlank s.text.toList = false :=
      List.all_eq_false.2 ⟨':', by rw [toList_text]; simp, by decide⟩
    rw [split, Text.lines_eq_singleton hne h.no_lineEnd]
    simp [hblank, hnoise, htrim]
  · have hcolumn : number? s.parts.column = s.column.map fun n => (n : ℤ) := by
      unfold parts
      cases hc : s.column with
      | none => rfl
      | some n => exact number?_nat (h.column n hc)
    simp only [parse, h.diagnostic?_text, Diagnostic.toFinding, hcolumn]
    simp only [parts, ruleIdOf_rule h, number?_nat h.line, h.file.trim_eq, h.message.trim_eq, String.ofList_toList]

/-- A statement whose message looks like a diagnostic of its own, with a rule at its end. -/
def nested : Statement where
  file := "src/my file.c"
  line := 12
  column := some 5
  level := "fatal error"
  message := "y.c:3: error: bad [z] [-Wfoo]"
  rule := "-Werror=unused"

theorem isPlain_nested : nested.IsPlain where
  file := ⟨by decide, by simp [nested, Text.isLineEnd], rfl⟩
  colon := by decide
  noDrive := by simp [nested]
  line := by decide
  column := by decide
  level := by decide
  message := ⟨by decide, by simp [nested, Text.isLineEnd], rfl⟩
  rule := ⟨by decide, by simp [nested, Text.isLineEnd], rfl⟩
  brackets := by simp [nested]

theorem Statement.read_back_nested : nested.IsPlain ∧ isNoise nested.text.toList = false ∧
    split "src/my file.c:12:5: fatal error: y.c:3: error: bad [z] [-Wfoo] [-Werror=unused]" =
      [.value (.text "src/my file.c:12:5: fatal error: y.c:3: error: bad [z] [-Wfoo] [-Werror=unused]")] ∧
    parse ⟨"gcc", "13.2"⟩ (.text "src/my file.c:12:5: fatal error: y.c:3: error: bad [z] [-Wfoo] [-Werror=unused]") =
      .ok ⟨"gcc", "13.2", "-Wunused", "src/my file.c", some 12, some 5, "y.c:3: error: bad [z] [-Wfoo]",
        some "fatal error"⟩ := by
  have htext : nested.text =
      "src/my file.c:12:5: fatal error: y.c:3: error: bad [z] [-Wfoo] [-Werror=unused]" := by decide +kernel
  have hrule : nested.ruleId = "-Wunused" := by decide +kernel
  have hnoise : isNoise nested.text.toList = false := by decide +kernel
  obtain ⟨hsplit, hparse⟩ := Statement.read_back ⟨"gcc", "13.2"⟩ nested isPlain_nested hnoise
  rw [htext] at hsplit hparse
  rw [hrule] at hparse
  exact ⟨isPlain_nested, hnoise, hsplit, hparse⟩

end Compiler

end Assay
