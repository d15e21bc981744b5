import Wireframe.Document
import Wireframe.Reading

/-!
# Readings as documents

The shapes in which scenes, tokens, errors and whole readings are exported.
-/

namespace Wireframe

namespace Position

/-- A position as a document. -/
def document (p : Position) : Document :=
  .record [("line", .number p.line), ("column", .number p.column)]

end Position

namespace Range

/-- A range as a document. -/
def document (r : Range) : Document :=
  .record [
    ("span", .record [("start", .number r.span.start), ("end", .number r.span.stop)]),
    ("start", r.start.document),
    ("end", r.stop.document)]

/-- A range as a document of single numbers: where it starts, its length and where it stops. -/
def place (r : Range) : Document :=
  .record [
    ("line", .number r.start.line),
    ("column", .number r.start.column),
    ("offset", .number r.span.start),
    ("length", .number r.span.length),
    ("end_line", .number r.stop.line),
    ("end_column", .number r.stop.column)]

end Range

namespace Token

/-- A token as a document. -/
def document (t : Token) : Document :=
  .record [("kind", .text t.kind.name), ("image", .text t.image), ("range", t.range.document)]

end Token

/-- Tokens as a document. -/
def tokensDocument (tokens : List Token) : Document :=
  .list (tokens.map Token.document)

namespace Value

/-- A value as a document. -/
def document : Value → Document
  | freeText t => .tagged "Natural" t.document
  | quotation t => .tagged "String" t.document
  | placeholder t => .tagged "Variable" t.document

end Value

namespace Literal

/-- A literal as a document. -/
def document : Literal → Document
  | quotation t => .tagged "String" t.document
  | placeholder t => .tagged "Variable" t.document

end Literal

namespace Count

/-- A count as a document. -/
def document (c : Count) : Document :=
  .record [("token", c.token.document), ("value", .number c.value)]

end Count

namespace Direction

/-- A direction as a document. -/
def document (d : Direction) : Document :=
  .record [
    ("count", .optional Count.document d.count),
    ("axis_keyword", d.keyword.document),
    ("axis", .text d.axis.name),
    ("line_end", d.lineEnd.document)]

end Direction

namespace Item

/-- What an item shows as a document. -/
def contentDocument : ItemContent → Document
  | .widget kind keyword value =>
    .tagged "Widget" (.record [
      ("kind", .text kind.name),
      ("keyword", keyword.document),
      ("value", .optional Value.document value)])
  | .literal literal => .tagged "Literal" literal.document

/-- An item as a document. -/
def document (i : Item) : Document :=
  .record [("content", contentDocument i.content), ("line_end", i.lineEnd.document)]

end Item

namespace ItemList

/-- A list as a document. -/
def document (l : ItemList) : Document :=
  .record [
    ("keyword", l.keyword.document),
    ("title", .optional Value.document l.title),
    ("header_end", .optional Token.document l.headerEnd),
    ("consists_of", l.consistsOf.document),
    ("line_end", l.lineEnd.document),
    ("items", .list (l.items.map Item.document))]

end ItemList

namespace Element

/-- An entry as a document. -/
def document : Element → Document
  | item i => .tagged "Item" i.document
  | list l => .tagged "List" l.document

end Element

namespace ElementGroup

/-- A group of elements as a document. -/
def document (g : ElementGroup) : Document :=
  .record [
    ("direction", .optional Direction.document g.direction),
    ("entries", .list (g.entries.map Element.document)),
    ("line_ends", tokensDocument g.lineEnds)]

end ElementGroup

namespace Block

/-- A block as a document. -/
def document (b : Block) : Document :=
  .record [
    ("keyword", b.keyword.document),
    ("title", .optional Value.document b.title),
    ("line_end", b.lineEnd.document),
    ("elements", .list (b.groups.map ElementGroup.document))]

end Block

namespace Alignment

/-- An alignment as a document. -/
def document (a : Alignment) : Document :=
  .record [
    ("keyword", a.keyword.document),
    ("names", .list (a.names.map Literal.document)),
    ("commas", tokensDocument a.commas),
    ("aligned", a.aligned.document),
    ("direction", a.direction.document)]

end Alignment

namespace BlockGroup

/-- A group of blocks as a document. -/
def document (g : BlockGroup) : Document :=
  .record [
    ("align", .optional Alignment.document g.alignment),
    ("blocks", .list (g.blocks.map Block.document)),
    ("line_ends", tokensDocument g.lineEnds)]

end BlockGroup

namespace DeviceTag

/-- A device and its keyword as a document. -/
def document (d : DeviceTag) : Document :=
  .record [("device", .text d.device.name), ("token", d.token.document)]

end DeviceTag

namespace Page

/-- A page as a document. -/
def document (p : Page) : Document :=
  .record [
    ("device", .optional DeviceTag.document p.device),
    ("keyword", p.keyword.document),
    ("value", p.title.document),
    ("line_end", p.lineEnd.document),
    ("blocks", .list (p.groups.map BlockGroup.document))]

end Page

namespace Scene

/-- A scene as a document. -/
def document (s : Scene) : Document :=
  .record [
    ("pages", .list (s.pages.map Page.document)),
    ("line_ends", tokensDocument s.lineEnds),
    ("comments", .list (s.comments.map fun c => .record [("token", c.token.document)]))]

end Scene

namespace LexError

/-- A lexing error as a document. -/
def document (e : LexError) : Document :=
  .record [
    ("line", .number e.range.start.line),
    ("column", .number e.range.start.column),
    ("offset", .number e.range.span.start),
    ("length", .number e.range.span.length),
    ("message", .text e.message)]

end LexError

namespace ParseError

/-- A parse error as a document. -/
def document (e : ParseError) : Document :=
  .record [
    ("message", .text e.message),
    ("expected", .list (e.expectation.kinds.map fun kind => .text kind.name)),
    ("found", .text e.foundName),
    ("token", e.range.place),
    ("rule_stack", .list (e.path.map fun rule => .text rule.name))]

end ParseError

namespace Reading

/-- A reading as a document. -/
def document : Reading → Document
  | success locale scene tokens =>
    .record [
      ("status", .text "success"),
      ("locale", .text locale.id),
      ("scene", scene.document),
      ("tokens", tokensDocument tokens)]
  | lexErrors errors =>
    .record [("status", .text "lex_errors"), ("errors", .list (errors.map LexError.document))]
  | parseErrors locale errors tokens =>
    .record [
      ("status", .text "parse_errors"),
      ("locale", .text locale.id),
      ("errors", .list (errors.map ParseError.document)),
      ("tokens", tokensDocument tokens)]

end Reading

end Wireframe
