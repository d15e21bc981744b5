import Wireframe.Arrangement
import Wireframe.Text.Quoted

/-!
# Checks of a scene

What a scene is expected to be, said piece by piece: a check names a part of the scene by its places
among its brothers, from the page on down, and says one thing about it. Blocks are counted over all
groups of their page, items over all groups of their block; the items of lists are not among these.
A check that is not met names the part that it is about.
-/

namespace Wireframe

/-- Why a check is not met. -/
inductive Unmet
  /-- The part that the check is about is not there. -/
  | missing (reason : String)
  /-- The part is not what it is expected to be. -/
  | differs (reason found expected : String)
  deriving DecidableEq, Repr

namespace Unmet

/-- An unmet check in words. -/
def message : Unmet → String
  | missing reason => reason
  | differs reason found expected =>
    "assertion \x60left == right\x60 failed: " ++ reason ++ "\n  left: " ++ found ++
      "\n right: " ++ expected

end Unmet

/-- What an item is expected to be. -/
inductive ItemCheck
  | reach
  | kind (kind : Widget)
  | literal
  | text (text : String)
  | noText
  deriving DecidableEq, Repr

/-- What a list is expected to be. -/
inductive ListCheck
  | reach
  | title (text : String)
  | itemCount (n : Nat)
  | item (index : Nat) (check : ItemCheck)
  deriving DecidableEq, Repr

/-- What a group of elements is expected to be. -/
inductive ElementsCheck
  | reach
  | direction (count : Nat) (axis : Axis)
  | entryCount (n : Nat)
  | item (index : Nat) (check : ItemCheck)
  | list (index : Nat) (check : ListCheck)
  deriving DecidableEq, Repr

/-- What a block is expected to be. -/
inductive BlockCheck
  | reach
  | title (text : String)
  | untitled
  | itemCount (n : Nat)
  | groupCount (n : Nat)
  | item (index : Nat) (check : ItemCheck)
  | elements (index : Nat) (check : ElementsCheck)
  deriving DecidableEq, Repr

/-- What a group of blocks is expected to be. -/
inductive GroupCheck
  | reach
  | blockCount (n : Nat)
  | names (names : List String)
  | direction (count : Nat) (axis : Axis)
  deriving DecidableEq, Repr

/-- What a page is expected to be. -/
inductive PageCheck
  | reach
  | title (text : String)
  | device (device : Option Device)
  | blockCount (n : Nat)
  | groupCount (n : Nat)
  | block (index : Nat) (check : BlockCheck)
  | group (index : Nat) (check : GroupCheck)
  deriving DecidableEq, Repr

/-- What a scene is expected to be. -/
inductive SceneCheck
  | reach
  | pageCount (n : Nat)
  | commentCount (n : Nat)
  | page (index : Nat) (check : PageCheck)
  deriving DecidableEq, Repr

/-! ## Words for messages -/

/-- A text that may be missing, in the words of a message. -/
def optionalText (text : Option String) : String :=
  Text.optional (text.map Text.quoted)

/-- A list of texts in the words of a message. -/
def textList (texts : List String) : String :=
  Text.bracketed (texts.map Text.quoted)

namespace Axis

/-- An axis in the words of a message. -/
def word : Axis → String
  | row => "Row"
  | column => "Column"

end Axis

namespace Flow

/-- A flow in the words of a message. -/
def words (f : Flow) : String :=
  toString f.count ++ " " ++ f.axis.word

/-- A flow as a pair. -/
def pair (f : Flow) : String :=
  "(" ++ toString f.count ++ ", " ++ f.axis.word ++ ")"

end Flow

namespace Item

/-- An item in the words of a message: what it is, and its text. -/
def words (i : Item) : String :=
  match i.text? with
  | some text => i.kindName ++ " " ++ Text.quoted text
  | none => i.kindName

end Item

/-- Items in the words of a message. -/
def itemWords (items : List Item) : String :=
  "[" ++ String.intercalate ", " (items.map Item.words) ++ "]"

/-- The name of a part by its place among its brothers. -/
def partName (whole part : String) (index : Nat) : String :=
  whole ++ "." ++ part ++ "[" ++ toString index ++ "]"

/-! ## Carrying checks out -/

/-- Compares what is found with what is expected. -/
def compareFound {α : Type} [DecidableEq α] (found expected : α) (words : α → String)
    (reason : String) : Except Unmet Unit :=
  if found = expected then .ok () else .error (.differs reason (words found) (words expected))

/-- Compares a flow with what is expected. -/
def compareFlow (name : String) (found : Flow) (count : Nat) (axis : Axis) : Except Unmet Unit :=
  let expected : Flow := ⟨count, axis⟩
  compareFound found expected Flow.pair
    (name ++ ": expected " ++ expected.words ++ ", found " ++ found.words)

/-- Compares a title or a text, which may be missing, with what is expected. -/
def compareText (name what : String) (found : Option String) (expected : String) :
    Except Unmet Unit :=
  compareFound found (some expected) optionalText
    (name ++ ": expected " ++ what ++ " " ++ Text.quoted expected ++ ", found " ++
      optionalText found)

/-- Compares a number of parts with what is expected. -/
def compareCount (name what : String) (found expected : Nat) (details : String) :
    Except Unmet Unit :=
  compareFound found expected toString
    (name ++ ": expected " ++ toString expected ++ " " ++ what ++ ", found " ++ toString found ++
      details)

/-- Carries out a check of a part, if it is there. -/
def atIndex {α : Type} (parts : List α) (index : Nat) (reason : String)
    (check : α → Except Unmet Unit) : Except Unmet Unit :=
  match parts[index]? with
  | some part => check part
  | none => .error (.missing reason)

namespace ItemCheck

/-- Checks an item. -/
def run (name : String) (i : Item) : ItemCheck → Except Unmet Unit
  | reach => .ok ()
  | kind expected =>
    compareFound i.kind? (some expected) (fun k => Text.optional (k.map (·.keyword.name)))
      (name ++ ": expected a " ++ expected.name ++ " item, found " ++ i.kindName)
  | literal =>
    compareFound i.kind? none (fun k => Text.optional (k.map (·.keyword.name)))
      (name ++ ": expected a literal item, found " ++ i.kindName)
  | text expected => compareText name "text" i.text? expected
  | noText =>
    compareFound i.text? none optionalText
      (name ++ ": expected no text, found " ++ optionalText i.text?)

end ItemCheck

namespace ListCheck

/-- Checks a list. -/
def run (name : String) (l : ItemList) : ListCheck → Except Unmet Unit
  | reach => .ok ()
  | title expected => compareText name "title" l.titleText? expected
  | itemCount n => compareCount name "list items" l.items.length n (": " ++ itemWords l.items)
  | item index check =>
    atIndex l.items index
      (name ++ ": list item index " ++ toString index ++ " out of bounds (" ++
        toString l.items.length ++ " items)")
      fun i => check.run (partName name "items" index) i

end ListCheck

namespace ElementsCheck

/-- Checks an entry of a group of elements. -/
def atEntry (name : String) (g : ElementGroup) (index : Nat)
    (check : Element → Except Unmet Unit) : Except Unmet Unit :=
  atIndex g.entries index
    (name ++ ": entry index " ++ toString index ++ " out of bounds (" ++
      toString g.entries.length ++ " entries)")
    check

/-- Checks a group of elements. -/
def run (name : String) (g : ElementGroup) : ElementsCheck → Except Unmet Unit
  | reach => .ok ()
  | direction count axis => compareFlow name g.flow count axis
  | entryCount n => compareCount name "entries" g.entries.length n ""
  | item index check =>
    atEntry name g index fun
      | .item i => check.run (partName name "entries" index) i
      | .list _ =>
        .error (.missing (name ++ ": entry " ++ toString index ++ " is a list, not an item"))
  | list index check =>
    atEntry name g index fun
      | .list l => check.run (partName name "entries" index) l
      | .item _ =>
        .error (.missing (name ++ ": entry " ++ toString index ++ " is an item, not a list"))

end ElementsCheck

namespace BlockCheck

/-- Checks a block. -/
def run (name : String) (b : Block) : BlockCheck → Except Unmet Unit
  | reach => .ok ()
  | title expected => compareText name "title" b.titleText? expected
  | untitled => compareFound b.titleText? none optionalText (name ++ ": expected no title")
  | itemCount n => compareCount name "items" b.items.length n (": " ++ itemWords b.items)
  | groupCount n => compareCount name "element groups" b.groups.length n ""
  | item index check =>
    atIndex b.items index
      (name ++ ": item index " ++ toString index ++ " out of bounds, items are " ++
        itemWords b.items)
      fun i => check.run (partName name "items" index) i
  | elements index check =>
    atIndex b.groups index
      (name ++ ": element group index " ++ toString index ++ " out of bounds (" ++
        toString b.groups.length ++ " groups)")
      fun g => check.run (partName name "elements" index) g

end BlockCheck

namespace GroupCheck

/-- Checks a group of blocks. -/
def run (name : String) (g : BlockGroup) : GroupCheck → Except Unmet Unit
  | reach => .ok ()
  | blockCount n => compareCount name "blocks" g.blocks.length n ""
  | names expected =>
    match g.alignment with
    | some a => compareFound a.titles expected textList (name ++ ": blockalign names differ")
    | none => .error (.missing (name ++ ": expected a blockalign, found none"))
  | direction count axis => compareFlow name g.flow count axis

end GroupCheck

namespace PageCheck

/-- A device that may be missing, in the words of a message. -/
def deviceWords (device : Option Device) : String :=
  Text.optional (device.map (·.keyword.name))

/-- Checks a page. -/
def run (name : String) (p : Page) : PageCheck → Except Unmet Unit
  | reach => .ok ()
  | title expected =>
    compareFound p.titleText expected Text.quoted
      (name ++ ": expected title " ++ Text.quoted expected ++ ", found " ++
        Text.quoted p.titleText)
  | device expected =>
    compareFound p.device? expected deviceWords
      (name ++ ": expected device " ++ deviceWords expected ++ ", found " ++
        deviceWords p.device?)
  | blockCount n =>
    compareCount name "blocks" p.blocks.length n
      (": " ++ Text.bracketed (p.blocks.map fun b => optionalText b.titleText?))
  | groupCount n => compareCount name "block groups" p.groups.length n ""
  | block index check =>
    atIndex p.blocks index
      (name ++ ": block index " ++ toString index ++ " out of bounds (" ++
        toString p.blocks.length ++ " blocks)")
      fun b => check.run (partName name "blocks" index) b
  | group index check =>
    atIndex p.groups index
      (name ++ ": group index " ++ toString index ++ " out of bounds (" ++
        toString p.groups.length ++ " groups)")
      fun g => check.run (partName name "groups" index) g

end PageCheck

namespace SceneCheck

/-- Checks a scene. -/
def run (s : Scene) : SceneCheck → Except Unmet Unit
  | reach => .ok ()
  | pageCount n =>
    compareFound s.pages.length n toString
      ("Expected " ++ toString n ++ " pages, found " ++ toString s.pages.length ++ ": " ++
        textList s.titles)
  | commentCount n =>
    compareFound s.comments.length n toString
      ("Expected " ++ toString n ++ " comments, found " ++ toString s.comments.length)
  | page index check =>
    atIndex s.pages index
      ("Page index " ++ toString index ++ " out of bounds (scene has " ++
        toString s.pages.length ++ " pages)")
      fun p => check.run ("pages[" ++ toString index ++ "]") p

end SceneCheck

end Wireframe
