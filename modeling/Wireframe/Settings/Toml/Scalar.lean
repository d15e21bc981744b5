import Wireframe.Settings.Setting
import Wireframe.Settings.Toml.Text

/-!
# Numbers and dates in TOML

A value that is no text, list or table is written as one *word*. A word is a switch, a whole number
in one of four bases, a number with decimals, or a date, a time or both. Underscores may stand
between digits. A date is kept as a text in its normal form.
-/

namespace Wireframe.Toml

/-- Whether a character may stand in a word. -/
def isWordChar (c : Char) : Bool :=
  c.isAlphanum || c = '_' || c = '-' || c = '+' || c = '.' || c = ':'

/-- Adds digits to a number. An underscore must stand between two digits; `afterDigit` says whether
    the last character was one. -/
def addDigits? (base n : Nat) (afterDigit : Bool) : List Char → Option Nat
  | [] => if afterDigit then some n else none
  | '_' :: rest => if afterDigit then addDigits? base n false rest else none
  | c :: rest =>
    match digit? base c with
    | some digit => addDigits? base (base * n + digit) true rest
    | none => none

/-- The number with the given digits. -/
def digits? (base : Nat) (text : List Char) : Option Nat :=
  addDigits? base 0 false text

/-- A sign, if there is one, as whether it is a minus, and the rest. -/
def sign : List Char → Bool × List Char
  | '-' :: rest => (true, rest)
  | '+' :: rest => (false, rest)
  | text => (false, text)

/-- Digits that do not begin with a zero, unless there is no other. -/
def decimalDigits? : List Char → Option Nat
  | ['0'] => some 0
  | '0' :: _ => none
  | text => digits? 10 text

/-- A whole number that fits into 64 bits with its sign. -/
def bounded (n : Int) : Option Setting :=
  if -9223372036854775808 ≤ n && n ≤ 9223372036854775807 then some (.integer n) else none

/-- A whole number. -/
def integer? (text : List Char) : Option Setting :=
  match text with
  | '0' :: 'x' :: rest => (digits? 16 rest).bind (bounded ·)
  | '0' :: 'o' :: rest => (digits? 8 rest).bind (bounded ·)
  | '0' :: 'b' :: rest => (digits? 2 rest).bind (bounded ·)
  | _ =>
    let (isNegative, digits) := sign text
    (decimalDigits? digits).bind fun n => bounded (if isNegative then -(n : Int) else n)

/-- A power of ten: a sign, if there is one, and digits. -/
def power? (text : List Char) : Option Int :=
  let (isNegative, digits) := sign text
  (digits? 10 digits).map fun n => if isNegative then -(n : Int) else n

/-- Whether a character is the letter before an exponent. -/
def isExponentMark (c : Char) : Bool :=
  c = 'e' || c = 'E'

/-- A number with decimals or an exponent, without its sign: its digits and a power of ten. -/
def decimal? (text : List Char) : Option (Nat × Int) := do
  let number := text.takeWhile (!isExponentMark ·)
  let exponent ← match text.drop number.length with
    | [] => some 0
    | _ :: rest => power? rest
  let whole := number.takeWhile (· ≠ '.')
  let n ← decimalDigits? whole
  match number.drop whole.length with
  | [] => if number.length = text.length then none else return (n, exponent)
  | _ :: decimals =>
    let all ← addDigits? 10 n false decimals
    return (all, exponent - (decimals.filter (· ≠ '_')).length)

/-- A number with decimals, or one of the names of the values beyond these. A positive number that
    is too large is none. -/
def quantity? (text : List Char) : Option Setting :=
  let (isNegative, rest) := sign text
  if rest = "inf".toList then some (.quantity (.infinite isNegative))
  else if rest = "nan".toList then some (.quantity .undefined)
  else
    match decimal? rest with
    | some (digits, power) =>
      let q := Quantity.ofDecimal isNegative digits power
      if q = .infinite false then none else some (.quantity q)
    | none => none

/-! ## Dates and times -/

/-- The number with exactly the given count of ASCII digits. -/
def fixedDigits? (count : Nat) (text : List Char) : Option Nat :=
  if text.length = count && text.all Char.isDigit then digits? 10 text else none

/-- The number of days of a month. -/
def daysOfMonth (year month : Nat) : Nat :=
  if month = 2 then
    if (year % 4 = 0 && year % 100 ≠ 0) || year % 400 = 0 then 29 else 28
  else if [4, 6, 9, 11].contains month then 30
  else 31

/-- Whether a text is a date. -/
def isDate (text : List Char) : Bool :=
  match fixedDigits? 4 (text.take 4), text.drop 4 with
  | some year, '-' :: m :: n :: '-' :: rest =>
    match fixedDigits? 2 [m, n], fixedDigits? 2 rest with
    | some month, some day =>
      1 ≤ month && month ≤ 12 && 1 ≤ day && day ≤ daysOfMonth year month
    | _, _ => false
  | _, _ => false

/-- The decimals of a second in their normal form: at most nine, without zeros at the end. -/
def decimalsOfSecond? : List Char → Option (List Char)
  | [] => some []
  | '.' :: digits =>
    if digits.isEmpty || !digits.all Char.isDigit then none
    else
      let kept := ((digits.take 9).reverse.dropWhile (· = '0')).reverse
      some (if kept.isEmpty then [] else '.' :: kept)
  | _ => none

/-- A time in its normal form. -/
def time? : List Char → Option (List Char)
  | h :: i :: ':' :: m :: n :: ':' :: s :: t :: rest =>
    match fixedDigits? 2 [h, i], fixedDigits? 2 [m, n], fixedDigits? 2 [s, t],
        decimalsOfSecond? rest with
    | some hour, some minute, some second, some decimals =>
      if hour < 24 && minute < 60 && second ≤ 60 then
        some ([h, i, ':', m, n, ':', s, t] ++ decimals)
      else none
    | _, _, _, _ => none
  | _ => none

/-- A distance from universal time in its normal form. -/
def timeOffset? : List Char → Option (List Char)
  | ['Z'] => some ['Z']
  | ['z'] => some ['Z']
  | [s, h, i, ':', m, n] =>
    match fixedDigits? 2 [h, i], fixedDigits? 2 [m, n] with
    | some hours, some minutes =>
      if (s = '+' || s = '-') && hours < 24 && minutes < 60 then
        some ((if hours = 0 && minutes = 0 then '+' else s) :: [h, i, ':', m, n])
      else none
    | _, _ => none
  | _ => none

/-- Whether a character begins a distance from universal time. -/
def startsOffset (c : Char) : Bool :=
  c = 'Z' || c = 'z' || c = '+' || c = '-'

/-- A time with or without a distance from universal time, in its normal form. -/
def timeOfDay? (text : List Char) : Option (List Char) :=
  let time := text.takeWhile (!startsOffset ·)
  match time? time, text.drop time.length with
  | some time, [] => some time
  | some time, offset => (timeOffset? offset).map (time ++ ·)
  | none, _ => none

/-- A date, a time or both, in normal form. -/
def moment? (text : List Char) : Option Setting :=
  if isDate text then some (.text (String.ofList text))
  else
    match time? text with
    | some time => some (.text (String.ofList time))
    | none =>
      let date := text.take 10
      match text.drop 10 with
      | separator :: rest =>
        if isDate date && (separator = 'T' || separator = 't') then
          (timeOfDay? rest).map fun time => .text (String.ofList (date ++ 'T' :: time))
        else none
      | [] => none

/-- The value that a word stands for. -/
def word? (text : List Char) : Option Setting :=
  if text = "true".toList then some (.switch true)
  else if text = "false".toList then some (.switch false)
  else ((moment? text).or (integer? text)).or (quantity? text)

/-- The value of the word at the front of a text, and the rest. A space instead of the letter may
    stand between a date and a time. -/
def scalar? (text : List Char) : Option (Setting × List Char) :=
  let word := text.takeWhile isWordChar
  let rest := text.drop word.length
  let later := match rest with
    | ' ' :: more => if isDate word then more.takeWhile isWordChar else []
    | _ => []
  match if later.isEmpty then none else moment? (word ++ 'T' :: later) with
  | some moment => some (moment, rest.drop (1 + later.length))
  | none => (word? word).map (·, rest)

end Wireframe.Toml
