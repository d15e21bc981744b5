import Wireframe.Text.Blank
import Wireframe.Text.Letter
import Wireframe.Token
import Wireframe.Vocabulary.Locale
import Wireframe.Vocabulary.Spelling

/-!
# The shapes of tokens

A *shape* says which texts can be a token of a kind. `Shape.length?` is the number of characters at
the front of a text that have the shape, always the most that can be had, and never none at all. A
*terminal* is a kind with its shape; the terminals of a locale stand in the order in which they are
registered, which decides between two matches of one length.

Free text is different from all others: it is what remains where no other terminal matches
(`Terminal.isCatchAll`).
-/

namespace Wireframe

open Text

/-- A form of a word, and whether the character after it must not be a letter. -/
structure WordForm where
  marks : List Mark
  bounded : Bool
  deriving DecidableEq, Repr

/-- Which texts can be a token of a kind. -/
inductive Shape
  /-- Spaces, tabs and question marks, then a line feed with or without a carriage return. -/
  | lineEnd
  /-- A run of blanks without line feeds and carriage returns. -/
  | blanks
  /-- Two slashes and the rest of the line. -/
  | comment
  /-- A number with digits, and possibly a sign, decimals and an exponent. -/
  | number
  /-- A text in quotation marks. -/
  | quotation
  /-- A text in angle brackets. -/
  | placeholder
  /-- One character. -/
  | single (c : Char)
  /-- One of the forms of a word; the first that matches counts. -/
  | word (forms : List WordForm)
  /-- Letters and the punctuation of captions; a slash only with such a character after it. -/
  | freeText

/-- The answer for a match of `n` characters: a match of nothing is none. -/
def nonempty (n : Nat) : Option Nat :=
  if n = 0 then none else some n

namespace Shape

/-- Whether a character may stand before a line end and belong to it. -/
def isLineTail (c : Char) : Bool :=
  c = ' ' || c = '\t' || c = '?'

/-- The length of the line break at the front of a text. -/
def lineBreakLength? : List Char → Option Nat
  | '\n' :: _ => some 1
  | '\r' :: '\n' :: _ => some 2
  | _ => none

/-- The length of the line end at the front of a text. -/
def lineEndLength? (text : List Char) : Option Nat :=
  let tail := text.takeWhile isLineTail
  (lineBreakLength? (text.drop tail.length)).map (tail.length + ·)

/-- Whether a character is a carriage return or a line feed. -/
def isBreak (c : Char) : Bool :=
  c = '\r' || c = '\n'

/-- The number of blanks other than line breaks at the front of a text. -/
def blanksLength (text : List Char) : Nat :=
  (text.takeWhile fun c => isBlank c && !isBreak c).length

/-- The length of the comment at the front of a text. -/
def commentLength? : List Char → Option Nat
  | '/' :: '/' :: rest => some (2 + (rest.takeWhile (!isBreak ·)).length)
  | _ => none

/-- The number of digits at the front of a text. -/
def digitsLength (text : List Char) : Nat :=
  (text.takeWhile isDigit).length

/-- The length of the whole part of a number: zero, or digits that do not begin with zero. -/
def wholeLength : List Char → Nat
  | '0' :: _ => 1
  | c :: rest => if '1' ≤ c && c ≤ '9' then 1 + digitsLength rest else 0
  | [] => 0

/-- The length of the decimals of a number: a point and digits, or nothing. -/
def decimalsLength : List Char → Nat
  | '.' :: rest => if digitsLength rest = 0 then 0 else 1 + digitsLength rest
  | _ => 0

/-- The length of the exponent of a number: an `e`, possibly a sign, and digits, or nothing. -/
def exponentLength : List Char → Nat
  | e :: rest =>
    if e = 'e' || e = 'E' then
      let sign := match rest with
        | '+' :: _ | '-' :: _ => 1
        | _ => 0
      let digits := digitsLength (rest.drop sign)
      if digits = 0 then 0 else 1 + sign + digits
    else 0
  | [] => 0

/-- The length of the number at the front of a text, and zero if there is none. -/
def numberLength (text : List Char) : Nat :=
  let sign := match text with
    | '-' :: _ => 1
    | _ => 0
  let whole := wholeLength (text.drop sign)
  if whole = 0 then 0
  else
    let integer := sign + whole
    let fixed := integer + decimalsLength (text.drop integer)
    fixed + exponentLength (text.drop fixed)

/-- Whether a character can begin or end a quotation. -/
def isQuotationMark (c : Char) : Bool :=
  c = '"' || c = '«' || c = '»'

/-- The number of characters up to and with the last one that can close a text in delimiters. A
    backslash takes the character after it, whatever it is, out of consideration, but no line feed;
    a line break ends the search, and so does a double quote, which closes or is not allowed. -/
def closingLength? (closes : Char → Bool) : List Char → Option Nat
  | [] => none
  | ['\\'] => none
  | '\\' :: c :: rest => if c = '\n' then none else (closingLength? closes rest).map (2 + ·)
  | c :: rest =>
    if isBreak c then none
    else if c = '"' then (if closes c then some 1 else none)
    else
      match closingLength? closes rest with
      | some length => some (1 + length)
      | none => if closes c then some 1 else none

/-- The length of the text in quotation marks at the front of a text. -/
def quotationLength? : List Char → Option Nat
  | c :: rest =>
    if isQuotationMark c then (closingLength? isQuotationMark rest).map (1 + ·) else none
  | [] => none

/-- The length of the text in angle brackets at the front of a text. -/
def placeholderLength? : List Char → Option Nat
  | '<' :: rest => (closingLength? (· = '>') rest).map (1 + ·)
  | _ => none

/-- The length of a form of a word at the front of a text, if what follows allows it. -/
def formLength? (form : WordForm) (text : List Char) : Option Nat :=
  match spelledLength? form.marks text with
  | some length =>
    if form.bounded && (text.drop length).head?.any isLetter then none else some length
  | none => none

/-- Whether a character may stand in free text by itself: a Latin or Russian letter, a space or one
    of a few punctuation marks. -/
def isFree (c : Char) : Bool :=
  ('a' ≤ c && c ≤ 'z') || ('A' ≤ c && c ≤ 'Z') || ('а' ≤ c && c ≤ 'я') || ('А' ≤ c && c ≤ 'Я') ||
    c = 'ё' || c = 'Ё' || c = ' ' || c = ',' || c = '.' || c = '(' || c = ')' || c = '\x27' ||
    c = '-'

/-- The number of characters of free text at the front of a text. -/
def freeTextLength : List Char → Nat
  | [] => 0
  | ['/'] => 0
  | '/' :: c :: rest => if isFree c then 2 + freeTextLength rest else 0
  | c :: rest => if isFree c then 1 + freeTextLength rest else 0

/-- The number of characters at the front of a text that have a shape, if there are any. -/
def length? : Shape → List Char → Option Nat
  | lineEnd, text => lineEndLength? text
  | blanks, text => nonempty (blanksLength text)
  | comment, text => commentLength? text
  | number, text => nonempty (numberLength text)
  | quotation, text => quotationLength? text
  | placeholder, text => placeholderLength? text
  | single c, text => if text.head? = some c then some 1 else none
  | word forms, text => (forms.findSome? (formLength? · text)).bind nonempty
  | freeText, text => nonempty (freeTextLength text)

/-- A form of a word as a regular expression; what is in the inner brackets is the word. -/
def formExpression (form : WordForm) : String :=
  "(" ++ expressionOfMarks form.marks ++ ")" ++ if form.bounded then "(?:\\P\x7bL\x7d|$)" else ""

/-- A shape as a regular expression. -/
def expression : Shape → String
  | lineEnd => "^[ \\t?]*\\r?\\n"
  | blanks => "^[^\\S\\r\\n]+"
  | comment => "^//[^\\r\\n]*"
  | number => "^-?(?:0|[1-9]\\d*)(?:\\.\\d+)?(?:[eE][+-]?\\d+)?"
  | quotation => "^[\"«»](?:[^\\n\\r\"\\\\]|\\\\.)*[\"«»]"
  | placeholder => "^<(?:[^\\n\\r\"\\\\]|\\\\.)*>"
  | single c => String.ofList ['^', c]
  | word forms => "^(?:" ++ String.intercalate "|" (forms.map formExpression) ++ ")"
  | freeText => "^(?:[a-zA-Zа-яА-ЯёЁ ,.()'\\-]|/[a-zA-Zа-яА-ЯёЁ ,.()'\\-])+"

end Shape

/-- A kind of token and its shape. -/
structure Terminal where
  kind : TokenKind
  shape : Shape

namespace Terminal

/-- Whether a terminal is tried only where no other one matches. -/
def isCatchAll (t : Terminal) : Bool :=
  t.kind = .freeText

/-- The terminals that every locale shares, free text aside. -/
def shared : List Terminal :=
  [⟨.lineEnd, .lineEnd⟩, ⟨.blanks, .blanks⟩, ⟨.comment, .comment⟩, ⟨.number, .number⟩,
    ⟨.quotation, .quotation⟩, ⟨.placeholder, .placeholder⟩, ⟨.comma, .single ','⟩,
    ⟨.colon, .single ':'⟩]

/-- Free text, which is tried last. -/
def catchAll : Terminal :=
  ⟨.freeText, .freeText⟩

end Terminal

namespace Dictionary

/-- A form of the dictionary as it is looked for in a text: what ends in a letter must end there. -/
def wordForm (d : Dictionary) (form : String) : WordForm :=
  ⟨d.marks form.toList, form.toList.getLast?.any isLetter⟩

/-- The shape of a word with the given forms. -/
def wordShape (d : Dictionary) (forms : List String) : Shape :=
  .word ((longestFirst forms).map d.wordForm)

/-- The terminals for the keywords of a dictionary. -/
def keywordTerminals (d : Dictionary) : List Terminal :=
  Keyword.all.map fun k => ⟨.keyword k, d.wordShape (d.keywords k)⟩

/-- The terminals for the numerals of a dictionary. -/
def numeralTerminals (d : Dictionary) : List Terminal :=
  Numeral.all.map fun n => ⟨.numeral n, d.wordShape (d.numerals n)⟩

/-- All terminals of a dictionary but free text, in order of registration. -/
def regularTerminals (d : Dictionary) : List Terminal :=
  Terminal.shared ++ d.keywordTerminals ++ d.numeralTerminals

end Dictionary

/-- The terminals of Russian. -/
def russianTerminals : List Terminal :=
  Dictionary.russian.regularTerminals

/-- The terminals of English. -/
def englishTerminals : List Terminal :=
  Dictionary.english.regularTerminals

namespace Locale

/-- The terminals of a locale but free text, in order of registration. -/
def regularTerminals : Locale → List Terminal
  | russian => russianTerminals
  | english => englishTerminals

/-- The terminals of a locale, in order of registration. -/
def terminals (locale : Locale) : List Terminal :=
  locale.regularTerminals ++ [.catchAll]

/-- The terminal of a kind. -/
def terminal? (locale : Locale) (kind : TokenKind) : Option Terminal :=
  locale.terminals.find? (·.kind = kind)

end Locale

end Wireframe
