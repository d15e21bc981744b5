import Wireframe.Text.Printable

/-!
# Quoted text

How a text is quoted in messages and token listings: between double quotes, with the quote, the
backslash, NUL and the three usual blanks escaped by name, and every character that cannot be shown
by itself by the number of its code point.
-/

namespace Wireframe.Text

/-- A number in lower-case hexadecimal digits, without leading zeros. -/
def hexadecimal (n : Nat) : List Char :=
  Nat.toDigits 16 n

/-- A character as it is written between double quotes. -/
def escapeChar (c : Char) : List Char :=
  match c with
  | '\x00' => ['\\', '0']
  | '\t' => ['\\', 't']
  | '\r' => ['\\', 'r']
  | '\n' => ['\\', 'n']
  | '"' => ['\\', '"']
  | '\\' => ['\\', '\\']
  | c => if isShown c then [c] else ['\\', 'u', '{'] ++ hexadecimal c.toNat ++ ['}']

/-- A text between double quotes. -/
def quote (text : List Char) : List Char :=
  '"' :: text.flatMap escapeChar ++ ['"']

/-- A text between double quotes. -/
def quoted (text : String) : String :=
  String.ofList (quote text.toList)

/-- A list in brackets, its members separated by commas. -/
def bracketed (members : List String) : String :=
  "[" ++ String.intercalate ", " members ++ "]"

/-- An optional member in the words of a message. -/
def optional : Option String → String
  | none => "None"
  | some member => "Some(" ++ member ++ ")"

end Wireframe.Text
