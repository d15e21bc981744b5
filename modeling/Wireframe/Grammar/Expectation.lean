import Wireframe.Scene.Rule
import Wireframe.Token

/-!
# Parse errors

A parse error says what was expected at a place and what was found there: a token, or the end of
the input. It carries the rules that were being parsed, outermost first.
-/

namespace Wireframe

/-- What the grammar can miss. -/
inductive Expectation
  | page
  | pageKeyword
  | pageTitle
  | pageTitleEnd
  | block
  | blocksKeyword
  | blockName
  | aligned
  | blockKeyword
  | blockTitleEnd
  | blockContent
  | entry
  | axis
  | directionEnd
  | count
  | item
  | itemEnd
  | listKeyword
  | consistsOf
  | listHeaderEnd
  deriving DecidableEq, Repr

namespace Expectation

/-- An expectation in words. -/
def message : Expectation → String
  | page => "expected a page"
  | pageKeyword => "expected the page keyword"
  | pageTitle => "expected the page title"
  | pageTitleEnd => "expected the end of the page title"
  | block => "expected a block"
  | blocksKeyword => "expected the blocks keyword"
  | blockName => "expected a block name after the comma"
  | aligned => "expected 'aligned'"
  | blockKeyword => "expected the block keyword"
  | blockTitleEnd => "expected the end of the block title"
  | blockContent => "expected an item, a list or a direction"
  | entry => "expected an item or a list"
  | axis => "expected rows or columns"
  | directionEnd => "expected the end of the direction"
  | count => "expected a whole number from 0 to 12"
  | item => "expected an item"
  | itemEnd => "expected the end of the item"
  | listKeyword => "expected the list keyword"
  | consistsOf => "expected 'consists of'"
  | listHeaderEnd => "expected the end of the list header"

/-- The kinds with which a literal begins. -/
def literalKinds : List TokenKind :=
  [.quotation, .placeholder]

/-- The kinds with which an item begins. -/
def itemKinds : List TokenKind :=
  [.keyword .field, .keyword .button, .keyword .header, .keyword .image, .keyword .space] ++
    literalKinds

/-- The kinds that are named where an element is missing. -/
def elementKinds : List TokenKind :=
  itemKinds ++ [.keyword .list, .number, .keyword .rows, .keyword .columns, .lineEnd]

/-- The kinds of tokens that would have met an expectation. -/
def kinds : Expectation → List TokenKind
  | page => [.keyword .mobile, .keyword .tablet, .keyword .widescreen, .keyword .page, .lineEnd]
  | pageKeyword => [.keyword .page]
  | pageTitle => [.quotation, .placeholder, .freeText]
  | pageTitleEnd => [.lineEnd]
  | block => [.keyword .blocks, .keyword .block, .lineEnd]
  | blocksKeyword => [.keyword .blocks]
  | blockName => literalKinds
  | aligned => [.keyword .aligned]
  | blockKeyword => [.keyword .block]
  | blockTitleEnd => [.lineEnd]
  | blockContent => elementKinds
  | entry => elementKinds
  | axis => [.keyword .rows, .keyword .columns]
  | directionEnd => [.lineEnd]
  | count => [.number]
  | item => itemKinds
  | itemEnd => [.lineEnd]
  | listKeyword => [.keyword .list]
  | consistsOf => [.keyword .consistsOf]
  | listHeaderEnd => [.lineEnd]

end Expectation

/-- An expectation that was not met. -/
structure ParseError where
  expectation : Expectation
  /-- The token found instead; none at the end of the input. -/
  found : Option Token
  range : Range
  /-- The rules being parsed, outermost first. -/
  path : List Rule
  deriving DecidableEq, Repr

namespace ParseError

/-- The name of what was found. -/
def foundName (e : ParseError) : String :=
  match e.found with
  | some t => t.kind.name
  | none => "EOF"

/-- The text of a parse error. -/
def message (e : ParseError) : String :=
  e.expectation.message ++ ", found " ++
    match e.found with
    | some t => t.description
    | none => "the end of input"

/-- A parse error as a line for the reader: its position and its text. -/
def diagnostic (e : ParseError) : String :=
  e.range.start.display ++ ": " ++ e.message

end ParseError

end Wireframe
