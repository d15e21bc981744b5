import Wireframe.Settings.Quantity
import Wireframe.Text.Lower
import Wireframe.Text.Quoted

/-!
# Setting values

What a key of a settings file can be set to. A value is taken for what is asked of it as far as it
can be: a switch can also be given by a number or by a word, a count by a switch, by a number with
decimals or by a text, a text by any single value.
-/

namespace Wireframe

/-- A value of a setting. -/
inductive Setting
  /-- The key is set, to nothing. -/
  | nothing
  | switch (isOn : Bool)
  | integer (n : Int)
  | quantity (q : Quantity)
  | text (text : String)
  | list (members : List Setting)
  | table (fields : List (String × Setting))
  deriving Repr

/-- What a setting is asked for. -/
inductive Asked
  | switch
  | count
  | text
  deriving DecidableEq, Repr

/-- A value that is not what is asked for. -/
inductive Misfit
  | notA (asked : Asked) (found : Setting)
  /-- A count below zero. -/
  | negative (n : Int)
  deriving Repr

namespace Asked

/-- What is asked for, in words. -/
def name : Asked → String
  | switch => "a boolean"
  | count => "an integer"
  | text => "a string"

end Asked

namespace Setting

/-- A value in the words of a message. -/
def description : Setting → String
  | nothing => "unit value"
  | switch isOn => "boolean \x60" ++ toString isOn ++ "\x60"
  | integer n => "integer \x60" ++ toString n ++ "\x60"
  | quantity q => "floating point \x60" ++ q.pointed ++ "\x60"
  | text s => "string " ++ Text.quoted s
  | list _ => "sequence"
  | table _ => "map"

end Setting

namespace Misfit

/-- A misfit in the words of a message. -/
def message : Misfit → String
  | notA asked found => "invalid type: " ++ found.description ++ ", expected " ++ asked.name
  | negative n =>
    "invalid type: 64-bit integer \x60" ++ toString n ++
      "\x60, expected an unsigned 64 bit or less integer"

end Misfit

/-- The switch that a word stands for. -/
def switchOfWord? (word : String) : Option Bool :=
  if ["true", "on", "yes"].contains word then some true
  else if ["false", "off", "no"].contains word then some false
  else none

/-- A text in lower case. -/
def lowerText (text : String) : String :=
  String.ofList (Text.lower text.toList)

/-- The count written with ASCII digits, possibly after a plus sign, within the limit of counts. -/
def countOfDigits? (text : List Char) : Option Nat :=
  let digits := match text with
    | '+' :: rest => rest
    | _ => text
  if digits.isEmpty || !digits.all Char.isDigit then none
  else
    let n := digits.foldl (fun n c => 10 * n + (c.toNat - '0'.toNat)) 0
    if n ≤ Quantity.countLimit then some n else none

namespace Setting

/-- A value as a switch. A number is on unless it is zero; words are taken in any case. -/
def toSwitch : Setting → Except Misfit Bool
  | switch isOn => .ok isOn
  | integer n => .ok (n ≠ 0)
  | quantity q => .ok (!q.isZero)
  | text s =>
    let word := lowerText s
    if word = "1" then .ok true
    else if word = "0" then .ok false
    else
      match switchOfWord? word with
      | some isOn => .ok isOn
      | none => .error (.notA .switch (text word))
  | other => .error (.notA .switch other)

/-- A value as a count. A switch counts as one or zero, and so does a word for it. -/
def toCount : Setting → Except Misfit Nat
  | switch isOn => .ok isOn.toNat
  | integer n => if n < 0 then .error (.negative n) else .ok n.toNat
  | quantity q => .ok q.toCount
  | text s =>
    match switchOfWord? (lowerText s) with
    | some isOn => .ok isOn.toNat
    | none =>
      match countOfDigits? s.toList with
      | some n => .ok n
      | none => .error (.notA .count (text s))
  | other => .error (.notA .count other)

/-- A value as a text. -/
def toText : Setting → Except Misfit String
  | switch isOn => .ok (toString isOn)
  | integer n => .ok (toString n)
  | quantity q => .ok q.display
  | text s => .ok s
  | other => .error (.notA .text other)

end Setting

end Wireframe
