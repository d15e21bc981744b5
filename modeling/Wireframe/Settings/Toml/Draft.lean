import Wireframe.Settings.Setting

/-!
# Tables under construction

A TOML text builds its tables piece by piece: a header declares a table, a key with dots makes the
tables on its way, and a header with double brackets begins a new member of a list of tables. A
table is declared once, and once declared it is not opened again by a key with dots; no key is set
twice. A `Draft` remembers how each table came to be, which is what these rules need.
-/

namespace Wireframe.Toml

/-- How a table came to be. -/
inductive Standing
  /-- On the way of a header. -/
  | implied
  /-- On the way of a key with dots. -/
  | dotted
  /-- By a header of its own. -/
  | declared
  deriving DecidableEq, Repr

/-- What a key stands for so far. -/
inductive Draft
  | value (setting : Setting)
  | table (standing : Standing) (fields : List (String × Draft))
  /-- A list of tables that headers add to. -/
  | tables (members : List (List (String × Draft)))

/-- The fields of a table under construction, in the order in which they were first named. -/
abbrev Fields := List (String × Draft)

/-- Changes what a key stands for; a new key comes last. -/
def alter (key : String) (change : Option Draft → Option Draft) : Fields → Option Fields
  | [] => (change none).map fun draft => [(key, draft)]
  | (other, draft) :: rest =>
    if other = key then (change (some draft)).map fun changed => (key, changed) :: rest
    else (alter key change rest).map ((other, draft) :: ·)

/-- Changes the table at the end of a path. Tables that are not there yet are made on the way. -/
def alterAt (way : Standing) (change : Standing → Fields → Option Fields) :
    List String → Standing → Fields → Option Fields
  | [], standing, fields => change standing fields
  | key :: path, _, fields =>
    alter key (fun
      | none => (alterAt way change path way []).map (.table way)
      | some (.value _) => none
      | some (.table standing inner) =>
        if way = .dotted && standing = .declared then none
        else (alterAt way change path standing inner).map (.table standing)
      | some (.tables members) =>
        (alterAt way change path .declared (members.getLast?.getD [])).map fun last =>
          .tables (members.dropLast ++ [last])) fields

namespace Fields

/-- Declares the table at the end of a path. -/
def declare (parent : List String) (key : String) (fields : Fields) : Option Fields :=
  alterAt .implied (fun _ inner => alter key (fun
    | none => some (.table .declared [])
    | some (.table .implied own) => some (.table .declared own)
    | some _ => none) inner) parent .declared fields

/-- Begins a new member of the list of tables at the end of a path. -/
def extend (parent : List String) (key : String) (fields : Fields) : Option Fields :=
  alterAt .implied (fun _ inner => alter key (fun
    | none => some (.tables [[]])
    | some (.tables members) => some (.tables (members ++ [[]]))
    | some _ => none) inner) parent .declared fields

/-- Sets a key in a table. A key with dots sets the last part in a table
    that such keys have made. -/
def assign (way : List String) (key : String) (setting : Setting) (fields : Fields) :
    Option Fields :=
  alterAt .dotted (fun standing inner =>
    if (standing = .dotted) = (way = []) then none
    else alter key (fun
      | none => some (.value setting)
      | some _ => none) inner) way .declared fields

/-- Sets a key in the table at the end of a path that was declared. -/
def assignAt (path way : List String) (key : String) (setting : Setting) (fields : Fields) :
    Option Fields :=
  alterAt .implied (fun _ inner => assign way key setting inner) path .declared fields

end Fields

mutual

/-- What a draft comes to. -/
def Draft.setting : Draft → Setting
  | .value setting => setting
  | .table _ fields => .table (settingsOf fields)
  | .tables members => .list (tablesOf members)

/-- What the fields of a table come to. -/
def settingsOf : List (String × Draft) → List (String × Setting)
  | [] => []
  | (key, draft) :: rest => (key, draft.setting) :: settingsOf rest

/-- What the members of a list of tables come to. -/
def tablesOf : List (List (String × Draft)) → List Setting
  | [] => []
  | fields :: rest => .table (settingsOf fields) :: tablesOf rest

end

end Wireframe.Toml
