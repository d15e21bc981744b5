import Wireframe.Source
import Wireframe.Text.Quoted
import Wireframe.Vocabulary.Concept

/-!
# Tokens

What the text of a scene is made of. Beside the words of the vocabulary there are literals, line
ends, a comma and a colon; blanks and comments are told apart from these, but mean nothing to the
grammar.
-/

namespace Wireframe

/-- What a token is. -/
inductive TokenKind
  /-- Two slashes and the rest of the line. -/
  | comment
  /-- A text in quotation marks. -/
  | quotation
  /-- A text in angle brackets, which stands for data. -/
  | placeholder
  /-- A text without delimiters. -/
  | freeText
  /-- A number in digits. -/
  | number
  | lineEnd
  | blanks
  | comma
  | colon
  | keyword (meaning : Keyword)
  | numeral (meaning : Numeral)
  deriving DecidableEq, Repr

namespace TokenKind

/-- The name of a kind in listings and messages. -/
def name : TokenKind → String
  | comment => "Comment"
  | quotation => "StringLiteral"
  | placeholder => "Variable"
  | freeText => "NaturalLiteral"
  | number => "NumberLiteral"
  | lineEnd => "LineEnd"
  | blanks => "WhiteSpace"
  | comma => "Comma"
  | colon => "Colon"
  | keyword meaning => meaning.name
  | numeral meaning => meaning.name

/-- Whether tokens of a kind are left out before a scene is parsed. -/
def isSkipped : TokenKind → Bool
  | blanks | comment => true
  | _ => false

end TokenKind

/-- A piece of a scene's text: what it is, how it is written, and where. -/
structure Token where
  kind : TokenKind
  image : String
  range : Range
  deriving DecidableEq, Repr

namespace Token

/-- The characters of a token. -/
def chars (t : Token) : List Char :=
  t.image.toList

/-- The offset at which a token starts. -/
def offset (t : Token) : Nat :=
  t.range.span.start

/-- The line on which a token starts. -/
def line (t : Token) : Nat :=
  t.range.start.line

/-- A token in the words of a listing: its kind and its quoted text. -/
def description (t : Token) : String :=
  t.kind.name ++ " " ++ Text.quoted t.image

/-- A token as a line of a listing: its position, kind and quoted text. -/
def listingLine (t : Token) : String :=
  t.range.start.display ++ " " ++ t.description ++ "\n"

end Token

/-- A token listing, one line a token. -/
def tokenListing (tokens : List Token) : String :=
  String.join (tokens.map Token.listingLine)

/-- Puts a token before the first one that does not start earlier. -/
def insertByOffset (t : Token) : List Token → List Token
  | [] => [t]
  | other :: rest =>
    if t.offset ≤ other.offset then t :: other :: rest else other :: insertByOffset t rest

/-- Tokens by rising offset; tokens at one offset keep their order. -/
def sortByOffset (tokens : List Token) : List Token :=
  tokens.foldr insertByOffset []

end Wireframe
