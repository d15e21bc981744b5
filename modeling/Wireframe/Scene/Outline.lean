import Wireframe.Scene.Node

/-!
# Outlines

An outline is a scene in a form that is easy to show: every node has a type, a label, a few
attributes, its range and its children. Keywords, values and line ends are not nodes of it; the
label of the node that they belong to sums them up.

`drawing` shows an outline as text, one line a node, with lines of box characters that lead from a
parent to its children.
-/

namespace Wireframe

/-- A node of an outline. -/
inductive Outline
  | node (rule : Rule) (label : String) (attributes : List (String × String)) (range : Range)
    (children : List Outline)
  deriving Repr

namespace Outline

/-- The rule that made a node. -/
def rule : Outline → Rule
  | node rule .. => rule

/-- The label of a node. -/
def label : Outline → String
  | node _ label .. => label

/-- The attributes of a node, by name. -/
def attributes : Outline → List (String × String)
  | node _ _ attributes .. => attributes

/-- The range of a node. -/
def range : Outline → Range
  | node _ _ _ range _ => range

/-- The children of a node. -/
def children : Outline → List Outline
  | node _ _ _ _ children => children

end Outline

/-- A number of things, in words. -/
def numbered (n : Nat) (one many : String) : String :=
  if n = 1 then "1 " ++ one else toString n ++ " " ++ many

/-- The label of something without a title. -/
def untitled : String := "(untitled)"

namespace Direction

/-- The outline of a direction. -/
def outline (d : Direction) : Outline :=
  let axis := d.axis.name
  let label := match d.count with
    | some count => numbered count.value axis (axis ++ "s")
    | none => axis ++ "s"
  .node .direction label [("axis", axis)] (Node.direction d).range []

end Direction

namespace Item

/-- The outline of an item. -/
def outline (i : Item) : Outline :=
  let label := match i.text? with
    | some text => i.kindName ++ " " ++ text
    | none => i.kindName
  .node .item label [("kind", i.kindName)] (Node.item i).range []

end Item

namespace ItemList

/-- The outline of a list. -/
def outline (l : ItemList) : Outline :=
  .node .list (l.titleText?.getD untitled) [] (Node.list l).range (l.items.map Item.outline)

end ItemList

namespace Element

/-- The outline of an entry. -/
def outline : Element → Outline
  | item i => i.outline
  | list l => l.outline

end Element

namespace ElementGroup

/-- The outline of a group of elements. -/
def outline (g : ElementGroup) : Outline :=
  .node .elements (numbered g.entries.length "entry" "entries") [] (Node.elements g).range
    (g.direction.toList.map Direction.outline ++ g.entries.map Element.outline)

end ElementGroup

namespace Block

/-- The outline of a block. -/
def outline (b : Block) : Outline :=
  .node .block (b.titleText?.getD untitled) [] (Node.block b).range
    (b.groups.map ElementGroup.outline)

end Block

namespace Alignment

/-- The outline of an alignment. -/
def outline (a : Alignment) : Outline :=
  let label :=
    if a.names.isEmpty then "following blocks" else String.intercalate ", " a.titles
  .node .alignment label [] (Node.alignment a).range [a.direction.outline]

end Alignment

namespace BlockGroup

/-- The outline of a group of blocks. -/
def outline (g : BlockGroup) : Outline :=
  .node .blocks (numbered g.blocks.length "block" "blocks") [] (Node.blocks g).range
    (g.alignment.toList.map Alignment.outline ++ g.blocks.map Block.outline)

end BlockGroup

namespace Page

/-- The outline of a page. -/
def outline (p : Page) : Outline :=
  .node .page p.titleText (p.device?.toList.map fun device => ("device", device.name))
    (Node.page p).range (p.groups.map BlockGroup.outline)

end Page

namespace Scene

/-- The outline of a scene. -/
def outline (s : Scene) : Outline :=
  .node .scene (numbered s.pages.length "page" "pages") [] (Node.scene s).range
    (s.pages.map Page.outline)

end Scene

/-! ## Drawing -/

namespace Rule

/-- The type of a node in an outline. -/
def nodeType : Rule → String
  | scene => "Scene"
  | page => "Page"
  | blocks => "Blocks"
  | alignment => "BlockAlign"
  | block => "Block"
  | elements => "Elements"
  | direction => "Direction"
  | item => "Item"
  | list => "List"
  | value => "Value"
  | literal => "Literal"
  | number => "Number"
  | comment => "Comment"

/-- The icon of a node in a drawing. -/
def icon : Rule → String
  | scene => "⧉"
  | page => "▭"
  | blocks => "▤"
  | alignment => "⇶"
  | block => "□"
  | elements => "≡"
  | direction => "↔"
  | item => "•"
  | list => "☰"
  | _ => "○"

end Rule

/-- The most characters of a label that a drawing shows. -/
def labelLimit : Nat := 30

/-- A label, cut off with three dots when it is too long. -/
def cutLabel (label : String) : String :=
  let chars := label.toList
  if chars.length > labelLimit then String.ofList (chars.take labelLimit) ++ "..." else label

/-- A number of at least two digits. -/
def twoDigits (n : Nat) : String :=
  let digits := toString n
  if n < 10 then "0" ++ digits else digits

namespace Outline

/-- The icon and the label of a node. -/
def caption (o : Outline) : String :=
  o.rule.icon ++ " " ++ cutLabel o.label

/-- The number of the line on which a node starts, if line numbers are asked for. -/
def lineNumber (lineNumbers : Bool) (o : Outline) : String :=
  if lineNumbers then twoDigits o.range.start.line ++ " " else ""

mutual

/-- The lines for a node that is not the root, after the given lead; `isLast` if no brother
    follows. -/
def drawNode (lineNumbers : Bool) (lead : String) (isLast : Bool) : Outline → String
  | node rule label attributes range children =>
    lineNumber lineNumbers (node rule label attributes range children) ++ lead ++
      (if isLast then "└─ " else "├─ ") ++ caption (node rule label attributes range children) ++
      "\n" ++ drawNodes lineNumbers (lead ++ if isLast then "  " else "│ ") children

/-- The lines for brothers. -/
def drawNodes (lineNumbers : Bool) (lead : String) : List Outline → String
  | [] => ""
  | o :: rest =>
    drawNode lineNumbers lead rest.isEmpty o ++ drawNodes lineNumbers lead rest

end

/-- An outline as text. The line of the root has no line number. -/
def drawing (lineNumbers : Bool) (o : Outline) : String :=
  o.caption ++ "\n" ++ drawNodes lineNumbers "" o.children

end Outline

namespace Scene

/-- A scene as a drawing of its outline. -/
def drawing (lineNumbers : Bool) (s : Scene) : String :=
  s.outline.drawing lineNumbers

end Scene

end Wireframe
