import Wireframe.Scene.Walk

/-!
# Laying a scene out as text

A scene is printed back in a regular layout: pages, alignments and blocks begin at the margin, what
is in a block is indented by one level, what is in a list by one more than the list, or by two when
the list is opened on two lines. Words and values are printed as they were written, with runs of
blanks in keywords squeezed. Comments get lines of their own, before the first node that starts on a
later line of the source.

Of the blank lines only those are kept that mean something: the one that makes up a group by itself,
and the one after a list that keeps the next item from joining the list.

The layout is made in one walk through the scene, by a `Printer` that each step of the walk changes.
-/

namespace Wireframe

/-- What has been printed, and what is to be remembered for the lines to come. -/
structure Printer where
  /-- The lines printed so far, the last one first. -/
  lines : List String
  /-- The level of indentation. -/
  indent : Nat
  /-- The comments to come, in the order of the source. -/
  comments : List Token
  /-- Whether the next direction belongs to the alignment just printed. -/
  inAlignment : Bool
  /-- How many levels each open list has added, the innermost first. -/
  listDepths : List Nat
  /-- Whether the last line belongs to a list that is closed now. -/
  listClosed : Bool
  deriving DecidableEq, Repr

namespace Token

/-- A keyword as it is printed: with single spaces between its words. -/
def squeezed (t : Token) : String :=
  String.ofList (Text.squeeze t.chars)

/-- A value as it is printed: without blanks around it. -/
def trimmed (t : Token) : String :=
  String.ofList (Text.trim t.chars)

end Token

/-- The parts of a line with single spaces between them; empty parts leave no space. -/
def joinParts (parts : List String) : String :=
  String.intercalate " " (parts.filter (!·.isEmpty))

namespace Direction

/-- A direction as it is printed. -/
def line (d : Direction) : String :=
  joinParts (d.count.toList.map (·.token.trimmed) ++ [d.keyword.squeezed])

end Direction

namespace Item

/-- An item as it is printed. -/
def line (i : Item) : String :=
  match i.content with
  | .widget _ keyword value => joinParts (keyword.squeezed :: value.toList.map (·.token.trimmed))
  | .literal literal => literal.token.trimmed

end Item

namespace ItemList

/-- The first words of a list as they are printed. -/
def titleParts (l : ItemList) : List String :=
  l.keyword.squeezed :: l.title.toList.map (·.token.trimmed)

end ItemList

namespace Block

/-- The first line of a block as it is printed. -/
def line (b : Block) : String :=
  joinParts (b.keyword.squeezed :: b.title.toList.map (·.token.trimmed))

end Block

namespace Alignment

/-- An alignment as it is printed. -/
def line (a : Alignment) : String :=
  joinParts [a.keyword.squeezed, String.intercalate ", " (a.names.map (·.token.trimmed)),
    a.aligned.squeezed, a.direction.line]

end Alignment

namespace Page

/-- The first line of a page as it is printed. -/
def line (p : Page) : String :=
  joinParts (p.device.toList.map (·.token.squeezed) ++ [p.keyword.squeezed, p.title.token.trimmed])

end Page

namespace Printer

/-- A printer at the beginning of a scene. -/
def start (s : Scene) : Printer :=
  ⟨[], 0, sortByOffset (s.comments.map Comment.token), false, [], false⟩

/-- The blanks before a line at a level. -/
def indentation (level : Nat) : String :=
  String.ofList (List.replicate (4 * level) ' ')

/-- Prints a line. -/
def writeLine (text : String) (p : Printer) : Printer :=
  { p with lines := (indentation p.indent ++ text) :: p.lines }

/-- Prints a blank line. -/
def blankLine (p : Printer) : Printer :=
  { p with lines := "" :: p.lines }

/-- Prints the comments that stand before a line of the source. -/
def flushBefore (line : Nat) (p : Printer) : Printer :=
  let (early, late) := p.comments.span (·.line < line)
  early.foldl (fun q comment => q.writeLine comment.trimmed) { p with comments := late }

/-- Prints all comments that are left. -/
def flush (p : Printer) : Printer :=
  p.comments.foldl (fun q comment => q.writeLine comment.trimmed) { p with comments := [] }

/-- Gets ready for a line that shows a node. -/
def startLine (n : Node) (p : Printer) : Printer :=
  p.flushBefore n.range.start.line

/-- What follows is in no list, and not after one. -/
def forgetList (p : Printer) : Printer :=
  { p with listClosed := false }

/-- Indents what follows. -/
def deeper (levels : Nat) (p : Printer) : Printer :=
  { p with indent := p.indent + levels }

/-- Opens a list on one or two lines. -/
def openList (l : ItemList) (p : Printer) : Printer :=
  if l.headerEnd.isSome then
    let q := ((p.writeLine (joinParts l.titleParts)).deeper 1).writeLine l.consistsOf.squeezed
    { q.deeper 1 with listDepths := 2 :: p.listDepths }
  else
    let q := p.writeLine (joinParts (l.titleParts ++ [l.consistsOf.squeezed]))
    { q.deeper 1 with listDepths := 1 :: p.listDepths }

/-- Closes the innermost list. -/
def closeList (p : Printer) : Printer :=
  { p with
    indent := p.indent - p.listDepths.headD 0
    listDepths := p.listDepths.tail
    listClosed := true }

/-- Prints what a node shows when the walk enters it. -/
def enter (n : Node) (p : Printer) : Printer :=
  match n with
  | .page page => ((p.startLine n).forgetList).writeLine page.line
  | .blocks g =>
    if g.alignment.isNone && g.blocks.isEmpty then p.forgetList.blankLine else p.forgetList
  | .alignment a => { (p.startLine n).writeLine a.line with inAlignment := true }
  | .block b => (((p.startLine n).forgetList).writeLine b.line).deeper 1
  | .elements g =>
    if g.direction.isNone && g.entries.isEmpty then p.forgetList.blankLine else p.forgetList
  | .direction d =>
    if p.inAlignment then { p with inAlignment := false } else (p.startLine n).writeLine d.line
  | .list l => ((p.startLine n).forgetList).openList l
  | .item i =>
    let q := p.startLine n
    let q := if q.listClosed then q.blankLine.forgetList else q
    q.writeLine i.line
  | .scene _ | .value _ | .literal _ | .number _ | .comment _ => p

/-- Ends what a node has begun when the walk leaves it. -/
def leave (n : Node) (p : Printer) : Printer :=
  match n with
  | .block _ => { p with indent := p.indent - 1 }
  | .list _ => p.closeList
  | _ => p

/-- Follows one step of a walk. -/
def follow (p : Printer) : Step → Printer
  | .enter n => p.enter n
  | .leave n => p.leave n

/-- The text printed. -/
def text (p : Printer) : String :=
  String.join (p.lines.reverse.map (· ++ "\n"))

end Printer

namespace Scene

/-- A scene as text. -/
def layout (s : Scene) : String :=
  (s.walk.foldl Printer.follow (.start s)).flush.text

end Scene

end Wireframe
