import Wireframe.Token.Shape

/-!
# Cutting a text into pieces

A text is cut, from its front on, into *lexemes*, each the longest match of a terminal at its
place, and *stray* runs: the characters in a row at which no terminal matches. Of two longest
matches the terminal registered first wins; free text is taken only where nothing else matches.
No text is lost: the images of the pieces, one after the other, are the text.
-/

namespace Wireframe

/-- A stretch of text: a match of a terminal, or a run of characters that belong to none. -/
inductive Piece
  | lexeme (kind : TokenKind) (image : List Char)
  | stray (image : List Char)
  deriving DecidableEq, Repr

namespace Piece

/-- The text of a piece. -/
def image : Piece → List Char
  | lexeme _ image => image
  | stray image => image

end Piece

/-- The better of the best match so far and the match of one more terminal: the longer one, and of
    equally long ones the earlier. -/
def betterMatch (text : List Char) (best : Option (TokenKind × Nat)) (t : Terminal) :
    Option (TokenKind × Nat) :=
  match t.shape.length? text, best with
  | none, _ => best
  | some length, none => some (t.kind, length)
  | some length, some (kind, longest) =>
    if length > longest then some (t.kind, length) else some (kind, longest)

/-- The longest match of the given terminals at the front of a text. -/
def longestMatch? (terminals : List Terminal) (text : List Char) : Option (TokenKind × Nat) :=
  terminals.foldl (betterMatch text) none

/-- The lexeme at the front of a text, by some terminals and free text: its kind and its length. -/
def lexemeAt? (terminals : List Terminal) (text : List Char) : Option (TokenKind × Nat) :=
  match longestMatch? terminals text with
  | some found => some found
  | none => (Terminal.catchAll.shape.length? text).map (Terminal.catchAll.kind, ·)

/-- Puts a stray character in front of pieces; it joins a stray run that comes first. -/
def consStray (c : Char) : List Piece → List Piece
  | .stray image :: rest => .stray (c :: image) :: rest
  | pieces => .stray [c] :: pieces

/-- The pieces of a text, in order, by some terminals and free text. -/
def cut (terminals : List Terminal) : List Char → List Piece
  | [] => []
  | c :: rest =>
    match lexemeAt? terminals (c :: rest) with
    | some (kind, length) =>
      .lexeme kind (c :: rest.take (length - 1)) :: cut terminals (rest.drop (length - 1))
    | none => consStray c (cut terminals rest)
  termination_by text => text.length
  decreasing_by
    · rw [List.length_drop, List.length_cons]
      omega
    · exact Nat.lt_succ_self _

namespace Locale

/-- The pieces of a text in a locale. -/
def pieces (locale : Locale) (text : List Char) : List Piece :=
  cut locale.regularTerminals text

end Locale

end Wireframe
