import Wireframe.Text.Utf8

/-!
# Files

A file is found by its path, and its bytes are read as a text. Two paths that differ only in parts
that stay where they are lead to the same file.
-/

namespace Wireframe

/-- A path without the parts that stay where they are. -/
def plainPath (path : String) : String :=
  let parts := path.splitOn "/"
  let kept := parts.filter fun part => !part.isEmpty && part ≠ "."
  (if path.startsWith "/" then "/" else "") ++ String.intercalate "/" kept

/-- Why a file cannot be read. -/
inductive ReadFault
  | notFound
  | notFolder
  | isFolder
  | notText
  deriving DecidableEq, Repr

namespace ReadFault

/-- A fault of reading in words. -/
def message : ReadFault → String
  | notFound => "No such file or directory (os error 2)"
  | notFolder => "Not a directory (os error 20)"
  | isFolder => "Is a directory (os error 21)"
  | notText => "stream did not contain valid UTF-8"

end ReadFault

/-- The text that the bytes of a file hold. -/
def textOfBytes (bytes : List UInt8) : Except ReadFault (List Char) :=
  match Utf8.text? bytes with
  | some text => .ok text
  | none => .error .notText

end Wireframe
