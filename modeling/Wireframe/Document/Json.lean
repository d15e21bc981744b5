import Wireframe.Document
import Wireframe.Text.Quoted

/-!
# Documents as JSON

A tagged value is written as an object with the tag as its only key. Objects and lists go over
several lines, indented by two spaces a level; an empty one stays on its line. In texts the quote,
the backslash and the controls are escaped and nothing else.
-/

namespace Wireframe

open Text

namespace Document

/-- A number in four hexadecimal digits. -/
def fourDigits (n : Nat) : List Char :=
  let digits := hexadecimal n
  List.replicate (4 - digits.length) '0' ++ digits

/-- A character as it is written in a JSON text. -/
def jsonChar (c : Char) : List Char :=
  match c with
  | '"' => ['\\', '"']
  | '\\' => ['\\', '\\']
  | '\x08' => ['\\', 'b']
  | '\t' => ['\\', 't']
  | '\n' => ['\\', 'n']
  | '\x0c' => ['\\', 'f']
  | '\r' => ['\\', 'r']
  | c => if c.toNat < 0x20 then '\\' :: 'u' :: fourDigits c.toNat else [c]

/-- A JSON text. -/
def jsonText (s : String) : String :=
  String.ofList ('"' :: s.toList.flatMap jsonChar ++ ['"'])

/-- The line break before a line at a level. -/
def jsonBreak (level : Nat) : String :=
  String.ofList ('\n' :: List.replicate (2 * level) ' ')

/-- Members between delimiters, each on a line of its own. -/
def jsonMembers (level : Nat) (opener closer : String) (members : List String) : String :=
  if members.isEmpty then opener ++ closer
  else
    opener ++ jsonBreak (level + 1) ++
      String.intercalate ("," ++ jsonBreak (level + 1)) members ++ jsonBreak level ++ closer

mutual

/-- A document as JSON, at a level of indentation. -/
def jsonAt (level : Nat) : Document → String
  | null => "null"
  | number n => toString n
  | text s => jsonText s
  | list members => jsonMembers level "[" "]" (jsonList (level + 1) members)
  | record fields => jsonMembers level "\x7b" "\x7d" (jsonFields (level + 1) fields)
  | tagged tag body =>
    jsonMembers level "\x7b" "\x7d" [jsonText tag ++ ": " ++ jsonAt (level + 1) body]

/-- The members of a list as JSON. -/
def jsonList (level : Nat) : List Document → List String
  | [] => []
  | d :: rest => jsonAt level d :: jsonList level rest

/-- The fields of a record as JSON. -/
def jsonFields (level : Nat) : List (String × Document) → List String
  | [] => []
  | (name, d) :: rest => (jsonText name ++ ": " ++ jsonAt level d) :: jsonFields level rest

end

/-- A document as JSON. -/
def json (d : Document) : String :=
  jsonAt 0 d

end Document

end Wireframe
