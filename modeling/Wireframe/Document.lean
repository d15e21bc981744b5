/-!
# Documents

What a reading is exported as: a value made of records, lists, texts and numbers. A value can be
*tagged* with the name of one of several variants that it belongs to. How a document is written down
is a matter of the format, `Wireframe.Document.Json` or `Wireframe.Document.Yaml`.
-/

namespace Wireframe

/-- A value to be exported. -/
inductive Document
  | null
  | number (n : Nat)
  | text (text : String)
  | list (members : List Document)
  /-- Named values, in the order in which they are written. -/
  | record (fields : List (String × Document))
  /-- A value of the variant with the given name. -/
  | tagged (tag : String) (body : Document)
  deriving Repr

namespace Document

/-- A value that may be missing. -/
def optional {α : Type} (f : α → Document) : Option α → Document
  | some x => f x
  | none => null

end Document

end Wireframe
