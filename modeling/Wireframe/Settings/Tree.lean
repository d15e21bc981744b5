import Wireframe.Settings.Setting

/-!
# Layers of settings

Settings are laid over each other: what a later layer sets replaces what an earlier one did, key by
key, and what it leaves out stays. Keys are compared in lower case. Lists are not mixed: a later
list replaces an earlier one. Every value remembers the file that it comes from, which messages
about it name.

A key can be a path. Its steps are keys joined by dots, and the places of members of lists, in
brackets; `SettingTree.set` makes what is missing on the way.
-/

namespace Wireframe

/-- Settings by key, with the file that each value comes from. -/
inductive SettingTree
  | leaf (setting : Setting) (origin : Option String)
  | list (members : List SettingTree) (origin : Option String)
  | branch (fields : List (String × SettingTree)) (origin : Option String)

/-- A step of a path through settings. -/
inductive SettingStep
  | key (name : String)
  /-- The member of a list at a place; a place below zero is counted from the end. -/
  | member (place : Int)
  deriving DecidableEq, Repr

namespace SettingTree

/-- No key is set. -/
def empty : SettingTree := branch [] none

/-- The fields of a branch; there are none in other trees. -/
def fields : SettingTree → List (String × SettingTree)
  | branch fields _ => fields
  | _ => []

/-- What a key is set to. -/
def find? (key : String) (tree : SettingTree) : Option SettingTree :=
  tree.fields.lookup key

/-- The file that a tree comes from. -/
def origin : SettingTree → Option String
  | leaf _ origin | list _ origin | branch _ origin => origin

mutual

/-- A value that comes from a file, or by hand. -/
def ofSetting (origin : Option String) : Setting → SettingTree
  | .list members => list (ofMembers origin members) origin
  | .table fields => branch (ofFields origin fields) origin
  | setting => leaf setting origin

/-- The members of a list. -/
def ofMembers (origin : Option String) : List Setting → List SettingTree
  | [] => []
  | setting :: rest => ofSetting origin setting :: ofMembers origin rest

/-- The fields of a table. -/
def ofFields (origin : Option String) : List (String × Setting) → List (String × SettingTree)
  | [] => []
  | (key, setting) :: rest => (key, ofSetting origin setting) :: ofFields origin rest

end

mutual

/-- The value that a tree holds. -/
def setting : SettingTree → Setting
  | leaf setting _ => setting
  | list members _ => .list (memberSettings members)
  | branch fields _ => .table (fieldSettings fields)

/-- The values that the members of a list hold. -/
def memberSettings : List SettingTree → List Setting
  | [] => []
  | tree :: rest => tree.setting :: memberSettings rest

/-- The values that fields hold. -/
def fieldSettings : List (String × SettingTree) → List (String × Setting)
  | [] => []
  | (key, tree) :: rest => (key, tree.setting) :: fieldSettings rest

end

/-! ## Changes -/

/-- Changes what a key is set to in some fields; a new key comes last. -/
def alterIn (key : String) (change : Option SettingTree → SettingTree) :
    List (String × SettingTree) → List (String × SettingTree)
  | [] => [(key, change none)]
  | (other, tree) :: rest =>
    if other = key then (key, change (some tree)) :: rest
    else (other, tree) :: alterIn key change rest

/-- Changes what a key, in lower case, is set to. A tree that is no branch gives way to one. -/
def alter (key : String) (change : Option SettingTree → SettingTree) : SettingTree → SettingTree
  | branch fields origin => branch (alterIn (lowerText key) change fields) origin
  | _ => branch (alterIn (lowerText key) change []) none

/-- Changes a member of a list, which grows up to the place of that member. A tree that is no list
    gives way to one. -/
def alterMember (place : Int) (change : SettingTree → SettingTree) (tree : SettingTree) :
    SettingTree :=
  let (members, origin) := match tree with
    | list members origin => (members, origin)
    | _ => ([], none)
  let place := if place < 0 then (members.length + place).toNat else place.toNat
  let missing := List.replicate (place + 1 - members.length) (leaf .nothing none)
  list ((members ++ missing).modify place change) origin

mutual

/-- Lays a tree over another one. -/
def overlay (below : SettingTree) : SettingTree → SettingTree
  | branch fields _ => overlayFields below fields
  | tree => tree

/-- Lays fields over a tree, one after the other. -/
def overlayFields (below : SettingTree) : List (String × SettingTree) → SettingTree
  | [] => below
  | (key, tree) :: rest =>
    overlayFields (alter key (fun found => overlay (found.getD empty) tree) below) rest

end

/-- Lays a tree over what is at the end of a path. A member of a list is replaced. -/
def setAt (value : SettingTree) : List SettingStep → SettingTree → SettingTree
  | [], _ => value
  | [.key name], tree => alter name (fun found => overlay (found.getD empty) value) tree
  | .key name :: path, tree => alter name (fun found => setAt value path (found.getD empty)) tree
  | .member place :: path, tree => alterMember place (setAt value path) tree

/-! ## Paths -/

/-- Whether a character may stand in a key of a path. -/
def isPathChar (c : Char) : Bool :=
  c.isAlphanum || c = '_' || c = '-' || c = ' '

/-- The parts of a text between separators. -/
def partsAt (separator : Char) : List Char → List (List Char)
  | [] => [[]]
  | c :: rest =>
    if c = separator then [] :: partsAt separator rest
    else
      match partsAt separator rest with
      | part :: parts => (c :: part) :: parts
      | [] => [[c]]

/-- The place that stands before a closing bracket, possibly between blanks. -/
def place? (text : List Char) : Option SettingStep :=
  let isBlank (c : Char) := c = ' ' || c = '\t'
  let inner := ((text.dropLast.dropWhile isBlank).reverse.dropWhile isBlank).reverse
  let (isNegative, digits) := match inner with
    | '-' :: digits => (true, digits)
    | digits => (false, digits)
  if text.getLast? = some ']' && digits.all Char.isDigit then
    match countOfDigits? digits with
    | some n =>
      if n ≤ Quantity.countLimit / 2 then some (.member (if isNegative then -(n : Int) else n))
      else none
    | none => none
  else none

/-- The steps of a part of a path: a key and, behind it, places in brackets. -/
def partSteps? (part : List Char) : Option (List SettingStep) :=
  match partsAt '[' part with
  | name :: places =>
    if !name.isEmpty && name.all isPathChar then
      (places.mapM place?).map (.key (String.ofList name) :: ·)
    else none
  | [] => none

/-- The steps of a key. One that does not read as a path is a single step. -/
def path (key : String) : List SettingStep :=
  match (partsAt '.' key.toList).mapM partSteps? with
  | some steps => steps.flatten
  | none => [.key key]

/-- Lays a tree over what a key stands for. -/
def set (tree : SettingTree) (key : String) (value : SettingTree) : SettingTree :=
  setAt value (path key) tree

/-- Lays the fields of a file over a tree. -/
def addFile (name : String) (fields : List (String × Setting)) (tree : SettingTree) : SettingTree :=
  fields.foldl (fun tree (key, setting) => tree.set key (ofSetting (some name) setting)) tree

end SettingTree

end Wireframe
