import Wireframe.Text.Blank
import Wireframe.Token

/-!
# Scenes

A scene is a tree that keeps the tokens it was read from, keywords and line ends included:

* a scene has pages;
* a page is one screen, with a title, possibly for a device, and groups of blocks;
* a group of blocks may be led by an alignment, which says how named blocks are laid out;
* a block has a title, possibly, and groups of elements;
* a group of elements may be led by a direction, and has items and lists;
* an item is one widget, or a literal by itself; a list is a template of repeated items.

Nothing is resolved here: the names in an alignment are still names, captions are still written as
in the source.
-/

namespace Wireframe

/-- What can follow a keyword on its line: free text, a quotation or a placeholder. -/
inductive Value
  | freeText (token : Token)
  | quotation (token : Token)
  | placeholder (token : Token)
  deriving DecidableEq, Repr

/-- What can stand by itself: a quotation or a placeholder. -/
inductive Literal
  | quotation (token : Token)
  | placeholder (token : Token)
  deriving DecidableEq, Repr

/-- The width class of the screen a page is for. -/
inductive Device
  | mobile
  | tablet
  | widescreen
  deriving DecidableEq, Repr

/-- A device and the keyword that names it. -/
structure DeviceTag where
  device : Device
  token : Token
  deriving DecidableEq, Repr

/-- The line along which a group is laid out. -/
inductive Axis
  | row
  | column
  deriving DecidableEq, Repr

/-- A number of rows or columns, in digits or as a word. -/
structure Count where
  token : Token
  value : Nat
  deriving DecidableEq, Repr

/-- Rows or columns, and possibly how many. -/
structure Direction where
  count : Option Count
  keyword : Token
  axis : Axis
  lineEnd : Token
  deriving DecidableEq, Repr

/-- The kinds of widgets. -/
inductive Widget
  | field
  | button
  | header
  | image
  | space
  deriving DecidableEq, Repr

/-- What an item shows. -/
inductive ItemContent
  | widget (kind : Widget) (keyword : Token) (value : Option Value)
  | literal (literal : Literal)
  deriving DecidableEq, Repr

/-- One widget, or a literal by itself, on a line of its own. -/
structure Item where
  content : ItemContent
  lineEnd : Token
  deriving DecidableEq, Repr

/-- A template of repeated items. -/
structure ItemList where
  keyword : Token
  title : Option Value
  /-- The line end after the title, if what the list consists of is said on the next line. -/
  headerEnd : Option Token
  consistsOf : Token
  lineEnd : Token
  items : List Item
  deriving DecidableEq, Repr

/-- A member of a group of elements. -/
inductive Element
  | item (item : Item)
  | list (list : ItemList)
  deriving DecidableEq, Repr

/-- Items and lists that share a direction. -/
structure ElementGroup where
  direction : Option Direction
  entries : List Element
  /-- The blank lines in the group. -/
  lineEnds : List Token
  deriving DecidableEq, Repr

/-- A named part of a page. -/
structure Block where
  keyword : Token
  title : Option Value
  lineEnd : Token
  groups : List ElementGroup
  deriving DecidableEq, Repr

/-- How the blocks with the given titles are laid out, or, without titles, those that follow. -/
structure Alignment where
  keyword : Token
  names : List Literal
  commas : List Token
  aligned : Token
  direction : Direction
  deriving DecidableEq, Repr

/-- Blocks that share an alignment. -/
structure BlockGroup where
  alignment : Option Alignment
  blocks : List Block
  /-- The blank lines in the group. -/
  lineEnds : List Token
  deriving DecidableEq, Repr

/-- One screen. -/
structure Page where
  device : Option DeviceTag
  keyword : Token
  title : Value
  lineEnd : Token
  groups : List BlockGroup
  deriving DecidableEq, Repr

/-- A comment. -/
structure Comment where
  token : Token
  deriving DecidableEq, Repr

/-- Pages, with the blank lines outside of them, and the comments of the whole text. -/
structure Scene where
  pages : List Page
  lineEnds : List Token
  comments : List Comment
  deriving DecidableEq, Repr

/-! ## Names and keywords -/

namespace Device

/-- The name of a device. -/
def name : Device → String
  | mobile => "mobile"
  | tablet => "tablet"
  | widescreen => "widescreen"

/-- The keyword for a device. -/
def keyword : Device → Keyword
  | mobile => .mobile
  | tablet => .tablet
  | widescreen => .widescreen

/-- The device a keyword is for. -/
def ofKeyword? : Keyword → Option Device
  | .mobile => some mobile
  | .tablet => some tablet
  | .widescreen => some widescreen
  | _ => none

end Device

namespace Axis

/-- The name of an axis. -/
def name : Axis → String
  | row => "row"
  | column => "column"

/-- The other axis. -/
def cross : Axis → Axis
  | row => column
  | column => row

/-- The keyword for an axis. -/
def keyword : Axis → Keyword
  | row => .rows
  | column => .columns

end Axis

namespace Widget

/-- The name of a kind of widget. -/
def name : Widget → String
  | field => "field"
  | button => "button"
  | header => "header"
  | image => "image"
  | space => "space"

/-- The keyword for a kind of widget. -/
def keyword : Widget → Keyword
  | field => .field
  | button => .button
  | header => .header
  | image => .image
  | space => .space

/-- The kind of widget a keyword is for. -/
def ofKeyword? : Keyword → Option Widget
  | .field => some field
  | .button => some button
  | .header => some header
  | .image => some image
  | .space => some space
  | _ => none

end Widget

/-! ## The text of values -/

/-- A text without its first and its last character. -/
def stripDelimiters (text : List Char) : List Char :=
  text.tail.dropLast

/-- Whether a backslash before a character only protects it. -/
def isProtected (c : Char) : Bool :=
  c = '"' || c = '«' || c = '»' || c = '\\'

/-- A text without the backslashes that protect a quotation mark or a backslash; any other backslash
    stays. -/
def unescape : List Char → List Char
  | '\\' :: c :: rest => if isProtected c then c :: unescape rest else '\\' :: unescape (c :: rest)
  | c :: rest => c :: unescape rest
  | [] => []

/-- The text in a quotation. -/
def quotationText (image : List Char) : List Char :=
  unescape (stripDelimiters image)

namespace Literal

/-- The token of a literal. -/
def token : Literal → Token
  | quotation t | placeholder t => t

/-- The text of a literal, without delimiters. -/
def text : Literal → String
  | quotation t => String.ofList (quotationText t.chars)
  | placeholder t => String.ofList (stripDelimiters t.chars)

/-- A literal as a value. -/
def toValue : Literal → Value
  | quotation t => .quotation t
  | placeholder t => .placeholder t

end Literal

namespace Value

/-- The token of a value. -/
def token : Value → Token
  | freeText t | quotation t | placeholder t => t

/-- The text of a value: free text is trimmed, quotations and placeholders lose their delimiters. -/
def text : Value → String
  | freeText t => String.ofList (Text.trim t.chars)
  | quotation t => String.ofList (quotationText t.chars)
  | placeholder t => String.ofList (stripDelimiters t.chars)

/-- Whether a value stands for data. -/
def isPlaceholder : Value → Bool
  | placeholder _ => true
  | _ => false

end Value

namespace Comment

/-- What a comment says, without the slashes before it. -/
def text (c : Comment) : String :=
  String.ofList (Text.trim (c.token.chars.dropWhile (· = '/')))

end Comment

/-! ## Parts of the tree -/

namespace Item

/-- The kind of widget an item is; a literal is none. -/
def kind? (i : Item) : Option Widget :=
  match i.content with
  | .widget kind _ _ => some kind
  | .literal _ => none

/-- The name of what an item is. -/
def kindName (i : Item) : String :=
  (i.kind?.map Widget.name).getD "literal"

/-- The text on the line of an item. -/
def text? (i : Item) : Option String :=
  match i.content with
  | .widget _ _ value => value.map Value.text
  | .literal literal => some literal.text

end Item

namespace ItemList

/-- The text of the title of a list. -/
def titleText? (l : ItemList) : Option String :=
  l.title.map Value.text

end ItemList

namespace Element

/-- The item that an entry is. -/
def item? : Element → Option Item
  | item i => some i
  | list _ => none

/-- The list that an entry is. -/
def list? : Element → Option ItemList
  | item _ => none
  | list l => some l

end Element

namespace ElementGroup

/-- The items of a group, not counting those of its lists. -/
def items (g : ElementGroup) : List Item :=
  g.entries.filterMap Element.item?

/-- The lists of a group. -/
def lists (g : ElementGroup) : List ItemList :=
  g.entries.filterMap Element.list?

/-- Whether there is nothing in a group, not even a blank line. -/
def isEmpty (g : ElementGroup) : Bool :=
  g.direction.isNone && g.entries.isEmpty && g.lineEnds.isEmpty

end ElementGroup

namespace Block

/-- The text of the title of a block. -/
def titleText? (b : Block) : Option String :=
  b.title.map Value.text

/-- The items of a block, not counting those of its lists. -/
def items (b : Block) : List Item :=
  b.groups.flatMap ElementGroup.items

end Block

namespace Alignment

/-- The titles of the blocks that are laid out. -/
def titles (a : Alignment) : List String :=
  a.names.map Literal.text

end Alignment

namespace BlockGroup

/-- Whether there is nothing in a group, not even a blank line. -/
def isEmpty (g : BlockGroup) : Bool :=
  g.alignment.isNone && g.blocks.isEmpty && g.lineEnds.isEmpty

end BlockGroup

namespace Page

/-- The text of the title of a page. -/
def titleText (p : Page) : String :=
  p.title.text

/-- The device a page is for. -/
def device? (p : Page) : Option Device :=
  p.device.map DeviceTag.device

/-- Every block of a page, in the order of the source. -/
def blocks (p : Page) : List Block :=
  p.groups.flatMap BlockGroup.blocks

end Page

namespace Scene

/-- A scene with nothing in it. -/
def empty : Scene := ⟨[], [], []⟩

/-- The titles of the pages. -/
def titles (s : Scene) : List String :=
  s.pages.map Page.titleText

end Scene

end Wireframe
