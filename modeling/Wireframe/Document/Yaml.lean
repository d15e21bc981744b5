import Wireframe.Document
import Wireframe.Document.Scalar

/-!
# Documents as YAML

Records and lists are written in block style, indented by two spaces a level; a list stands at the
level of the key that it belongs to. The tag of a value is written as a YAML tag before it. A value
can have only one, so a tagged value directly inside a tagged one cannot be written.
-/

namespace Wireframe

namespace Document

/-- The indentation at a level. -/
def yamlIndentation (level : Nat) : String :=
  String.ofList (List.replicate (2 * level) ' ')

/-- Whether a value is tagged. -/
def isTagged : Document → Bool
  | tagged .. => true
  | _ => false

mutual

/-- A value after a key or a tag at a level, up to and with the line break that ends it. -/
def yamlValue? (level : Nat) : Document → Option String
  | null => some " null\n"
  | number n => some (" " ++ toString n ++ "\n")
  | text s => some (" " ++ String.ofList (Scalar.write (2 * (level + 1)) s.toList))
  | list [] => some " []\n"
  | list (d :: rest) => (yamlItems? level (d :: rest)).map ("\n" ++ ·)
  | record [] => some " \x7b\x7d\n"
  | record (f :: rest) =>
    (yamlFields? (level + 1) (f :: rest)).map fun lines => "\n" ++ String.join lines
  | tagged tag body =>
    if body.isTagged then none else (yamlValue? level body).map (" !" ++ tag ++ ·)

/-- The items of a list at a level. -/
def yamlItems? (level : Nat) : List Document → Option String
  | [] => some ""
  | d :: rest => do
    let item ← yamlItem? level d
    let items ← yamlItems? level rest
    return yamlIndentation level ++ "-" ++ item ++ items

/-- An item after its dash. The first field of a record stands on the line of the dash. -/
def yamlItem? (level : Nat) : Document → Option String
  | record (f :: rest) => do
    let lines ← yamlFields? (level + 1) (f :: rest)
    match lines with
    | [] => return "\n"
    | first :: more =>
      return " " ++ String.ofList (first.toList.drop (2 * (level + 1))) ++ String.join more
  | null => some " null\n"
  | number n => some (" " ++ toString n ++ "\n")
  | text s => some (" " ++ String.ofList (Scalar.write (2 * (level + 1)) s.toList))
  | list members => (yamlItems? (level + 1) members).map ("\n" ++ ·)
  | record [] => some " \x7b\x7d\n"
  | tagged tag body =>
    if body.isTagged then none else (yamlValue? level body).map (" !" ++ tag ++ ·)

/-- The fields of a record at a level, each with its lines. -/
def yamlFields? (level : Nat) : List (String × Document) → Option (List String)
  | [] => some []
  | (name, d) :: rest => do
    let value ← yamlValue? level d
    let fields ← yamlFields? level rest
    return (yamlIndentation level ++ name ++ ":" ++ value) :: fields

end

/-- A document, which has to be a record, as YAML; nothing if a tagged value is tagged again. -/
def yaml? : Document → Option String
  | record fields => (yamlFields? 0 fields).map String.join
  | d => (yamlValue? 0 d).map fun value => String.ofList (value.toList.drop 1)

end Document

end Wireframe
