import Wireframe.Text.CodePoint

/-!
# Blank characters

The property `White_Space` of the Unicode standard (version 16), and what the library does with
blanks: trimming them off both ends of a text and splitting a text into words at them.
-/

namespace Wireframe.Text

/-- The characters with the property `White_Space`. -/
def blankRanges : List CodeRange :=
  [
    ⟨0x9, 0xD⟩, ⟨0x20, 0x20⟩, ⟨0x85, 0x85⟩, ⟨0xA0, 0xA0⟩, ⟨0x1680, 0x1680⟩, ⟨0x2000, 0x200A⟩,
    ⟨0x2028, 0x2029⟩, ⟨0x202F, 0x202F⟩, ⟨0x205F, 0x205F⟩, ⟨0x3000, 0x3000⟩
  ]

/-- Whether a character has the property `White_Space`. -/
def isBlank (c : Char) : Bool :=
  inRanges blankRanges c.toNat

/-- A text without its trailing blanks. -/
def trimEnd : List Char → List Char
  | [] => []
  | c :: rest =>
    match trimEnd rest with
    | [] => if isBlank c then [] else [c]
    | kept => c :: kept

/-- A text without its leading and trailing blanks. -/
def trim (text : List Char) : List Char :=
  trimEnd (text.dropWhile isBlank)

/-- The words of a text: its maximal runs of characters that are not blank. The run at the start of
    the text is kept apart, as it may go on to the left. -/
def splitWords : List Char → List Char × List (List Char)
  | [] => ([], [])
  | c :: rest =>
    let (word, words) := splitWords rest
    if isBlank c then ([], if word.isEmpty then words else word :: words)
    else (c :: word, words)

/-- The words of a text, in order: its maximal runs of characters that are not blank. -/
def words (text : List Char) : List (List Char) :=
  let (word, words) := splitWords text
  if word.isEmpty then words else word :: words

/-- A text with each run of blanks between its words turned into one space, and none around it. -/
def squeeze (text : List Char) : List Char :=
  List.intercalate [' '] (words text)

end Wireframe.Text
