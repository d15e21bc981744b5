import Wireframe.Grammar.Parse
import Wireframe.Scene

/-!
# The grammar of scenes

One parse for each rule:

    scene      := (page | LineEnd)*
    page       := (Mobile | Tablet | Widescreen)? Page value LineEnd blocks*
    blocks     := blockalign (block | LineEnd)* | (block | LineEnd)+
    blockalign := Blocks (literal (Comma literal)*)? Aligned direction
    block      := Block value? LineEnd elements*
    elements   := direction (item | list | LineEnd)* | (item | list | LineEnd)+
    direction  := number? (Rows | Columns) LineEnd
    item       := ((Field | Button | Header | Image | Space) value? | literal) LineEnd
    list       := List value? LineEnd? ConsistsOf LineEnd item*
    literal    := StringLiteral | Variable
    number     := NumberLiteral | Zero | One | ... | Twelve
    value      := StringLiteral | Variable | NaturalLiteral

An alignment or a direction always opens a new group, so a group is never empty. A rule whose first
line is faulty gives nothing, but the lines after it are still parsed for their errors. The loops
over lines stop at the tokens that can only begin something further out.
-/

namespace Wireframe

namespace TokenKind

/-- Whether a page begins with a kind. -/
def startsPage : TokenKind → Bool
  | keyword .page | keyword .mobile | keyword .tablet | keyword .widescreen => true
  | _ => false

/-- Whether a kind ends a block. -/
def endsBlock : TokenKind → Bool
  | keyword .block | keyword .blocks => true
  | kind => kind.startsPage

/-- Whether a kind ends a group of blocks that has begun. -/
def endsBlocks (kind : TokenKind) : Bool :=
  kind.endsBlock && kind ≠ .keyword .block

/-- Whether a number begins with a kind. -/
def startsNumber : TokenKind → Bool
  | number | numeral _ => true
  | _ => false

/-- Whether a direction begins with a kind. -/
def startsDirection : TokenKind → Bool
  | keyword .rows | keyword .columns => true
  | kind => kind.startsNumber

/-- Whether a literal begins with a kind. -/
def startsLiteral : TokenKind → Bool
  | quotation | placeholder => true
  | _ => false

/-- Whether an item begins with a kind. -/
def startsItem : TokenKind → Bool
  | keyword k => (Widget.ofKeyword? k).isSome
  | kind => kind.startsLiteral

/-- Whether a group of elements begins with a kind. -/
def startsElements : TokenKind → Bool
  | keyword .list | lineEnd => true
  | kind => kind.startsDirection || kind.startsItem

/-- Whether a kind ends a group of elements that has begun. -/
def endsElements (kind : TokenKind) : Bool :=
  kind.endsBlock || kind.startsDirection

end TokenKind

/-- The number written with ASCII digits, possibly after a plus sign, if it is at most twelve. -/
def smallNumber? (image : List Char) : Option Nat :=
  let digits := match image with
    | '+' :: rest => rest
    | _ => image
  if digits.isEmpty || !digits.all Char.isDigit then none
  else
    let value := digits.foldl (fun n c => 10 * n + (c.toNat - '0'.toNat)) 0
    if value ≤ 12 then some value else none

namespace Token

/-- The number from zero to twelve that a token stands for. -/
def count? (t : Token) : Option Nat :=
  match t.kind with
  | .numeral n => some n.value
  | .number => smallNumber? t.chars
  | _ => none

end Token

/-- A line of a group: a blank one, or what begins on it. -/
inductive Line (α : Type)
  | blank (lineEnd : Token)
  | content (x : α)

namespace Line

variable {α : Type}

/-- The line end of a blank line. -/
def blank? : Line α → Option Token
  | blank t => some t
  | content _ => none

/-- What begins on a line. -/
def content? : Line α → Option α
  | blank _ => none
  | content x => some x

end Line

namespace Parse

/-- A line that cannot be parsed: it is reported and skipped. -/
def refuseLine {α : Type} (e : Expectation) : Parse α :=
  orSkipLine (refuse e)

/-- A blank line. -/
def blankLine {α : Type} : Parse (Line α) := do
  return .blank (← next)

/-- What begins on a line that is not blank. -/
def contentLine {α : Type} (p : Parse α) : Parse (Line α) := do
  return .content (← p)

/-- The next token if it is of the given kind. -/
def optionalToken (kind : TokenKind) : Parse (Option Token) := do
  if (← peek) = some kind then return some (← next) else return none

/-- A value, if there is one. -/
def optionalValue : Parse (Option Value) := do
  match ← peek with
  | some .freeText => return some (.freeText (← next))
  | some .quotation => return some (.quotation (← next))
  | some .placeholder => return some (.placeholder (← next))
  | _ => return none

/-- A value. -/
def value (e : Expectation) : Parse Value := within .value do
  match ← optionalValue with
  | some v => return v
  | none => refuse e

/-- A literal, if there is one. -/
def optionalLiteral : Parse (Option Literal) := do
  match ← peek with
  | some .quotation => return some (.quotation (← next))
  | some .placeholder => return some (.placeholder (← next))
  | _ => return none

/-- A literal. -/
def literal (e : Expectation) : Parse Literal := within .literal do
  match ← optionalLiteral with
  | some l => return l
  | none => refuse e

/-- A number from zero to twelve. Any other number is reported, and read. -/
def number : Parse Count := within .number do
  let token ← next
  match token.count? with
  | some value => return ⟨token, value⟩
  | none =>
    reportAt (some token) .count
    fail

/-- The count of a direction, if there is one that can be used. -/
def optionalCount : Parse (Option Count) := do
  match ← peek with
  | some kind => if kind.startsNumber then attempt number else return none
  | none => return none

/-- The keyword for an axis. -/
def axis : Parse Axis := do
  match ← peek with
  | some (.keyword .rows) => return .row
  | some (.keyword .columns) => return .column
  | _ => refuse .axis

/-- A direction. -/
def direction : Parse Direction := within .direction do
  let count ← optionalCount
  let axis ← axis
  let keyword ← next
  let lineEnd ← expect .lineEnd .directionEnd
  return ⟨count, keyword, axis, lineEnd⟩

/-- What an item shows. -/
def itemContent : Parse ItemContent := do
  match ← peek with
  | some (.keyword k) =>
    match Widget.ofKeyword? k with
    | some kind =>
      let keyword ← next
      let value ← optionalValue
      return .widget kind keyword value
    | none => refuse .item
  | some .quotation | some .placeholder => return .literal (← literal .item)
  | _ => refuse .item

/-- An item. -/
def item : Parse Item := within .item <| orSkipLine do
  let content ← itemContent
  let lineEnd ← expect .lineEnd .itemEnd
  return ⟨content, lineEnd⟩

/-- A list. -/
def list : Parse ItemList := within .list <| orSkipLine do
  let keyword ← expect (.keyword .list) .listKeyword
  let title ← optionalValue
  let headerEnd ← optionalToken .lineEnd
  let consistsOf ← expect (.keyword .consistsOf) .consistsOf
  let lineEnd ← expect .lineEnd .listHeaderEnd
  let items ← loop (!·.startsItem) fun _ => item
  return ⟨keyword, title, headerEnd, consistsOf, lineEnd, items⟩

/-- A line of a group of elements. -/
def elementLine (kind : TokenKind) : Parse (Line Element) :=
  if kind = .lineEnd then blankLine
  else if kind = .keyword .list then contentLine (Element.list <$> list)
  else if kind.startsItem then contentLine (Element.item <$> item)
  else refuseLine .entry

/-- The direction of a group of elements, if it begins with one that can be used. -/
def optionalDirection : Parse (Option Direction) := do
  match ← peek with
  | some kind => if kind.startsDirection then attempt (orSkipLine direction) else return none
  | none => return none

/-- A group of elements. -/
def elements : Parse ElementGroup := within .elements do
  let direction ← optionalDirection
  let lines ← loop TokenKind.endsElements elementLine
  return ⟨direction, lines.filterMap Line.content?, lines.filterMap Line.blank?⟩

/-- A group of elements that is left out when nothing of it can be used. -/
def elementsOrNone : Parse ElementGroup := do
  let group ← elements
  if group.isEmpty then fail else return group

/-- The first line of a block: its keyword, title and line end. -/
def blockHeader : Parse (Token × Option Value × Token) := orSkipLine do
  let keyword ← expect (.keyword .block) .blockKeyword
  let title ← optionalValue
  let lineEnd ← expect .lineEnd .blockTitleEnd
  return (keyword, title, lineEnd)

/-- A block. -/
def block : Parse Block := within .block do
  let header ← attempt blockHeader
  let groups ← loop TokenKind.endsBlock fun kind =>
    if kind.startsElements then elementsOrNone else refuseLine .blockContent
  match header with
  | some (keyword, title, lineEnd) => return ⟨keyword, title, lineEnd, groups⟩
  | none => fail

/-- A name of an alignment after the first one, and the comma before it. -/
def nextName : Parse (Token × Literal) := do
  let comma ← next
  let name ← literal .blockName
  return (comma, name)

/-- The names of an alignment and the commas between them. -/
def names : Parse (List Literal × List Token) := do
  match ← optionalLiteral with
  | none => return ([], [])
  | some first =>
    let more ← repeatAt .comma nextName
    return (first :: more.map Prod.snd, more.map Prod.fst)

/-- An alignment. -/
def alignment : Parse Alignment := within .alignment <| orSkipLine do
  let keyword ← expect (.keyword .blocks) .blocksKeyword
  let (names, commas) ← names
  let aligned ← expect (.keyword .aligned) .aligned
  let direction ← direction
  return ⟨keyword, names, commas, aligned, direction⟩

/-- The alignment of a group of blocks, if it begins with one that can be used. -/
def optionalAlignment : Parse (Option Alignment) := do
  if (← peek) = some (.keyword .blocks) then attempt alignment else return none

/-- A line of a group of blocks. -/
def blockLine (kind : TokenKind) : Parse (Line Block) :=
  if kind = .keyword .block then contentLine block
  else if kind = .lineEnd then blankLine
  else refuseLine .block

/-- A group of blocks. -/
def blocks : Parse BlockGroup := within .blocks do
  let alignment ← optionalAlignment
  let lines ← loop TokenKind.endsBlocks blockLine
  return ⟨alignment, lines.filterMap Line.content?, lines.filterMap Line.blank?⟩

/-- A group of blocks that is left out when nothing of it can be used. -/
def blocksOrNone : Parse BlockGroup := do
  let group ← blocks
  if group.isEmpty then fail else return group

/-- The device a page is for, if it names one. -/
def optionalDevice : Parse (Option DeviceTag) := do
  match ← peek with
  | some (.keyword k) =>
    match Device.ofKeyword? k with
    | some device => return some ⟨device, ← next⟩
    | none => return none
  | _ => return none

/-- The first line of a page: its device, keyword, title and line end. -/
def pageHeader : Parse (Option DeviceTag × Token × Value × Token) := orSkipLine do
  let device ← optionalDevice
  let keyword ← expect (.keyword .page) .pageKeyword
  let title ← value .pageTitle
  let lineEnd ← expect .lineEnd .pageTitleEnd
  return (device, keyword, title, lineEnd)

/-- A page. -/
def page : Parse Page := within .page do
  let header ← attempt pageHeader
  let groups ← loop TokenKind.startsPage fun kind =>
    if kind = .keyword .blocks || kind = .keyword .block || kind = .lineEnd then blocksOrNone
    else refuseLine .block
  match header with
  | some (device, keyword, title, lineEnd) => return ⟨device, keyword, title, lineEnd, groups⟩
  | none => fail

/-- A line outside of pages. -/
def sceneLine (kind : TokenKind) : Parse (Line Page) :=
  if kind = .lineEnd then blankLine
  else if kind.startsPage then contentLine page
  else refuseLine .page

/-- A scene. -/
def scene : Parse Scene := within .scene do
  let lines ← loop (fun _ => false) sceneLine
  return ⟨lines.filterMap Line.content?, lines.filterMap Line.blank?, []⟩

end Parse

/-- A scene as far as the tokens allow it, and what is wrong with them. -/
structure Parsing where
  /-- The scene without the parts whose first line cannot be parsed. -/
  scene : Scene
  errors : List ParseError
  deriving DecidableEq, Repr

namespace Parsing

/-- The number of errors after which a parse stops, unless another is set. -/
def defaultLimit : Nat := 100

/-- The place after the last of some tokens. -/
def finishOf (tokens : List Token) : Range :=
  match tokens.getLast? with
  | some last => .emptyAt last.range.span.stop last.range.stop
  | none => .origin

/-- Parses tokens; blanks and comments among them are left out. A limit of zero counts as one. -/
def ofTokens (limit : Nat) (tokens : List Token) : Parsing :=
  let kept := tokens.filter (!·.kind.isSkipped)
  let (scene, cursor) := Parse.scene ⟨max 1 limit, finishOf kept⟩ ⟨kept, [], []⟩
  ⟨scene.getD .empty, cursor.errors⟩

/-- Whether anything is wrong with the tokens. -/
def hasErrors (p : Parsing) : Bool :=
  !p.errors.isEmpty

end Parsing

end Wireframe
