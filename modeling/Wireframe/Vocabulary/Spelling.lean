import Wireframe.Text.Blank
import Wireframe.Text.Fold
import Wireframe.Text.Letter
import Wireframe.Vocabulary.Dictionary

/-!
# How a form may be spelled

A form of the dictionary is read as a list of *marks*: a letter stands for itself in either case, a
letter that may be interchanged for any letter of its group, and the space between two words for a
run of spaces and tabs. `spelledLength?` reads such a form off the front of a text; as no letter is
a space or a tab, there is only one way to do so.

The same marks have a textual form, a regular expression, which is what tools that show the
vocabulary print (`Mark.expression`).
-/

namespace Wireframe

open Text

/-- One position of a form. -/
inductive Mark
  /-- The letter itself, in either case. -/
  | letter (c : Char)
  /-- Any letter of a group, in either case. -/
  | anyOf (group : List Char)
  /-- A run of spaces and tabs. -/
  | gap
  deriving DecidableEq, Repr

/-- Whether a character may stand between two words of a form. -/
def isGap (c : Char) : Bool :=
  c = ' ' || c = '\t'

namespace Mark

/-- Whether a mark for one letter can be read as the given character. -/
def reads (c : Char) : Mark → Bool
  | letter d => sameLetter d c
  | anyOf group => group.any (sameLetter · c)
  | gap => false

end Mark

/-- The number of characters that spell the marks at the front of a text, if they do. -/
def spelledLength? : List Mark → List Char → Option Nat
  | [], _ => some 0
  | .gap :: marks, text =>
    let blanks := text.takeWhile isGap
    if blanks.isEmpty then none
    else (spelledLength? marks (text.drop blanks.length)).map (blanks.length + ·)
  | _ :: _, [] => none
  | mark :: marks, c :: rest =>
    if mark.reads c then (spelledLength? marks rest).map (1 + ·) else none

namespace Dictionary

/-- How one letter of a form may be written. -/
def mark (d : Dictionary) (c : Char) : Mark :=
  match d.interchangeable.find? (·.contains c) with
  | some group => .anyOf group
  | none => .letter c

/-- How a form may be written. -/
def marks (d : Dictionary) (form : List Char) : List Mark :=
  List.intercalate [.gap] ((words form).map (·.map d.mark))

end Dictionary

/-- Puts a form in front of the first one that is not longer. -/
def insertForm (form : String) : List String → List String
  | [] => [form]
  | other :: rest =>
    if other.toList.length ≤ form.toList.length then form :: other :: rest
    else other :: insertForm form rest

/-- Forms by falling length; forms of one length keep their order. -/
def longestFirst (forms : List String) : List String :=
  forms.foldr insertForm []

/-- Puts a letter into a regular expression: the characters with a meaning of their own there are
    escaped. -/
def escapeForExpression (c : Char) : List Char :=
  if "\\.+*?()|[]\x7b\x7d^$#&-~".toList.contains c then ['\\', c] else [c]

namespace Mark

/-- A mark as a regular expression. -/
def expression : Mark → List Char
  | letter c => escapeForExpression c
  | anyOf group => '[' :: group ++ [']']
  | gap => "[ \\t]+".toList

end Mark

/-- The marks of a form as a regular expression that disregards case. -/
def expressionOfMarks (marks : List Mark) : String :=
  "(?i:" ++ String.ofList (marks.flatMap Mark.expression) ++ ")"

namespace Dictionary

/-- A form as a regular expression. -/
def expression (d : Dictionary) (form : String) : String :=
  expressionOfMarks (d.marks form.toList)

/-- The regular expression for any of the given forms. -/
def alternatives (d : Dictionary) (forms : List String) : String :=
  String.intercalate "|" ((longestFirst forms).map d.expression)

/-- The length of the longest of the given forms that the front of a text spells; longer forms are
    tried first. -/
def formAt? (d : Dictionary) (forms : List String) (text : List Char) : Option Nat :=
  (longestFirst forms).findSome? fun form => spelledLength? (d.marks form.toList) text

/-- Where a text first spells one of the given forms: the characters before it and its length. -/
def searchForm? (d : Dictionary) (forms : List String) : List Char → Option (List Char × Nat)
  | [] => (d.formAt? forms []).map ([], ·)
  | text@(c :: rest) =>
    match d.formAt? forms text with
    | some length => some ([], length)
    | none => (d.searchForm? forms rest).map fun (before, length) => (c :: before, length)

/-- Where a text first has one of the given forms. If no forms are given there is nothing to look
    for, which every text has at its front. -/
def findForm? (d : Dictionary) (forms : List String) (text : List Char) :
    Option (List Char × Nat) :=
  if forms.isEmpty then some ([], 0) else d.searchForm? forms text

end Dictionary

end Wireframe
