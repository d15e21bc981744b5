import Wireframe.Token.Piece

/-!
# Lexing

The pieces of a text, each with its range, are sorted into what the grammar reads (`tokens`), what
it does not (`comments`, and blanks, which are dropped) and what is wrong (`errors`, one for each
stray run).

A comment on a line of its own takes the line end with it. So a line can be commented out without a
blank line staying behind, which would, for one, end a list.
-/

namespace Wireframe

/-- What can be wrong with a text before it is parsed. -/
inductive LexFault
  /-- A run of characters that belong to no token, by its first character and their number. -/
  | stray (first : Char) (count : Nat)
  /-- The locale cannot be detected, as none of these page keywords is there. -/
  | unknownLocale (pageForms : List String)
  deriving DecidableEq, Repr

/-- A fault of a text and its place. -/
structure LexError where
  fault : LexFault
  range : Range
  deriving DecidableEq, Repr

namespace LexError

/-- The text of a lexing error. -/
def message (e : LexError) : String :=
  match e.fault with
  | .stray first count =>
    "unexpected character: ->" ++ first.toString ++ "<- at offset: " ++
      toString e.range.span.start ++ ", skipped " ++ toString count ++ " characters."
  | .unknownLocale pageForms =>
    "cannot detect the scene locale: no page keyword found, expected one of " ++
      String.intercalate ", " (pageForms.map Text.quoted)

/-- A lexing error as a line for the reader: its position and its text. -/
def diagnostic (e : LexError) : String :=
  e.range.start.display ++ ": " ++ e.message

end LexError

/-- What the lexer makes of a text. -/
structure Lexing where
  /-- What the grammar reads. -/
  tokens : List Token
  comments : List Token
  errors : List LexError
  deriving DecidableEq, Repr

/-- Gives each of the pieces that follow a place its range. -/
def locate (offset : Nat) (position : Position) : List Piece → List (Piece × Range)
  | [] => []
  | piece :: rest =>
    let range := Range.ofText offset position piece.image
    (piece, range) :: locate range.span.stop range.stop rest

/-- What the lexer remembers of the line that it is on. -/
structure LineState where
  /-- A token other than blanks and comments was on the line. -/
  hasTokens : Bool
  /-- The line holds a comment, and held no token before it. -/
  isComment : Bool
  deriving DecidableEq, Repr

namespace LineState

/-- The beginning of a line. -/
def fresh : LineState := ⟨false, false⟩

end LineState

namespace Lexing

/-- Nothing. -/
def empty : Lexing := ⟨[], [], []⟩

/-- Puts a token in front. -/
def consToken (t : Token) (l : Lexing) : Lexing :=
  { l with tokens := t :: l.tokens }

/-- Puts a comment in front. -/
def consComment (t : Token) (l : Lexing) : Lexing :=
  { l with comments := t :: l.comments }

/-- Puts an error in front. -/
def consError (e : LexError) (l : Lexing) : Lexing :=
  { l with errors := e :: l.errors }

/-- Sorts pieces into tokens, comments and errors. -/
def sift (line : LineState) : List (Piece × Range) → Lexing
  | [] => empty
  | (.stray image, range) :: rest =>
    match image with
    | [] => sift line rest
    | first :: _ => (sift line rest).consError ⟨.stray first image.length, range⟩
  | (.lexeme kind image, range) :: rest =>
    let token : Token := ⟨kind, String.ofList image, range⟩
    match kind with
    | .blanks => sift line rest
    | .comment => (sift { line with isComment := !line.hasTokens } rest).consComment token
    | .lineEnd =>
      if line.isComment then sift .fresh rest else (sift .fresh rest).consToken token
    | _ => (sift { line with hasTokens := true } rest).consToken token

/-- What the lexer makes of a text that is cut into pieces. -/
def ofPieces (pieces : List Piece) : Lexing :=
  sift .fresh (locate 0 .start pieces)

/-- What the lexer makes of a text in a locale. -/
def ofText (locale : Locale) (text : List Char) : Lexing :=
  ofPieces (locale.pieces text)

/-- Whether anything is wrong with the text. -/
def hasErrors (l : Lexing) : Bool :=
  !l.errors.isEmpty

end Lexing

end Wireframe
