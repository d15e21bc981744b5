import Wireframe.Text.Quoted

/-!
# How a text is written in YAML

A text is written plain if it can be read back from that. It is quoted if a reader would
take it for something else than a text, or for more than a scalar; it is written as a block
of lines if it has line feeds; and it is written with escapes if it has characters that must
not stand in a YAML stream.
-/

namespace Wireframe

open Text

namespace Scalar

/-! ## Texts that read as something else -/

/-- The value of a digit in a base of at most sixteen. -/
def digitValue? (base : Nat) (c : Char) : Option Nat :=
  let value :=
    if '0' ≤ c && c ≤ '9' then c.toNat - '0'.toNat
    else if 'a' ≤ c && c ≤ 'f' then c.toNat - 'a'.toNat + 10
    else if 'A' ≤ c && c ≤ 'F' then c.toNat - 'A'.toNat + 10
    else 16
  if value < base then some value else none

/-- Whether a text is a number without sign, in digits of the given base. -/
def isDigits (base : Nat) (text : List Char) : Bool :=
  !text.isEmpty && text.all fun c => (digitValue? base c).isSome

/-- The number that digits of a base stand for. -/
def numberOfDigits (base : Nat) (text : List Char) : Nat :=
  text.foldl (fun n c => base * n + (digitValue? base c).getD 0) 0

/-- A text without a sign at its front. -/
def dropSign : List Char → List Char
  | '+' :: rest => rest
  | '-' :: rest => rest
  | text => text

/-- Whether a text is a zero with further digits, possibly after a sign, which is no number. -/
def isPaddedZero (text : List Char) : Bool :=
  match dropSign text with
  | '0' :: rest => isDigits 10 rest
  | _ => false

/-- The texts that stand for nothing. -/
def nulls : List String := ["null", "Null", "NULL", "~"]

/-- The texts that stand for a truth value. -/
def truths : List String := ["true", "True", "TRUE", "false", "False", "FALSE"]

/-- The texts that stand for an infinity or for no number at all. -/
def specialNumbers : List String :=
  [".inf", ".Inf", ".INF", "+.inf", "+.Inf", "+.INF", "-.inf", "-.Inf", "-.INF", ".nan", ".NaN",
    ".NAN"]

/-- The limit below which the absolute value of a whole number is read exactly. -/
def wholeLimit (negative : Bool) : Nat :=
  if negative then Nat.pow 2 127 + 1 else Nat.pow 2 128

/-- Whether a text reads as a whole number in a base other than ten: a sign, possibly, the mark of
    the base, and digits. -/
def isMarkedWhole (text : List Char) : Bool :=
  let negative := text.head? = some '-'
  match dropSign text with
  | '0' :: mark :: digits =>
    let base := if mark = 'x' then 16 else if mark = 'o' then 8 else if mark = 'b' then 2 else 0
    isDigits base digits && numberOfDigits base digits < wholeLimit negative
  | _ => false

/-- A decimal number without sign: the digits before and after the point, and the exponent. -/
structure DecimalText where
  whole : List Char
  decimals : List Char
  exponent : Int

/-- The exponent after an `e`. -/
def exponent? (text : List Char) : Option Int :=
  let digits := dropSign text
  if isDigits 10 digits then
    let n := numberOfDigits 10 digits
    some (if text.head? = some '-' then -n else n)
  else none

/-- The parts of a decimal number without sign: digits with a point among them or at either end, and
    possibly an exponent. -/
def decimal? (text : List Char) : Option DecimalText :=
  let isDecimal (c : Char) : Bool := '0' ≤ c && c ≤ '9'
  let whole := text.takeWhile isDecimal
  let rest := text.drop whole.length
  let decimals := match rest with
    | '.' :: more => more.takeWhile isDecimal
    | _ => []
  let rest := match rest with
    | '.' :: more => more.drop decimals.length
    | _ => rest
  if whole.isEmpty && decimals.isEmpty then none
  else
    match rest with
    | [] => some ⟨whole, decimals, 0⟩
    | e :: more =>
      if e = 'e' || e = 'E' then (exponent? more).map fun exponent => ⟨whole, decimals, exponent⟩
      else none

/-- Whether a decimal number is read as a finite one in double precision: it lies below the middle
    between the greatest finite number and the next power of two. -/
def DecimalText.isFinite (d : DecimalText) : Bool :=
  let digits := (d.whole ++ d.decimals).dropWhile (· = '0')
  let mantissa := numberOfDigits 10 digits
  let exponent := d.exponent - d.decimals.length
  let magnitude : Int := digits.length + exponent
  if mantissa = 0 || magnitude < 300 then true
  else if magnitude > 400 then false
  else
    let limit := (Nat.pow 2 54 - 1) * Nat.pow 2 970
    if exponent ≥ 0 then mantissa * Nat.pow 10 exponent.toNat < limit
    else mantissa < limit * Nat.pow 10 (-exponent).toNat

/-- Whether a text reads as a finite decimal number. -/
def isDecimal (text : List Char) : Bool :=
  ((decimal? (dropSign text)).map DecimalText.isFinite).getD false

/-- Whether a text that is written plain reads as something else than a text, or as a number to
    some readers. -/
def isAmbiguous (text : List Char) : Bool :=
  let s := String.ofList text
  text.isEmpty || nulls.contains s || truths.contains s || specialNumbers.contains s ||
    isMarkedWhole text || isPaddedZero text || isDecimal text

/-! ## Texts that cannot be plain -/

/-- Whether a character breaks a line. -/
def isLineBreak (c : Char) : Bool :=
  c = '\n' || c = '\r' || c = '\x85' || c = '\u2028' || c = '\u2029'

/-- Whether a character ends a word or a line. -/
def isGapOrBreak (c : Char) : Bool :=
  c = ' ' || c = '\t' || isLineBreak c

/-- Whether a character may stand in a YAML stream as it is. -/
def isAllowed (c : Char) : Bool :=
  let n := c.toNat
  n = 0x0A || (0x20 ≤ n && n ≤ 0x7E) || (0xA0 ≤ n && n ≠ 0xFEFF && n ≠ 0xFFFE && n ≠ 0xFFFF)

/-- Whether there are neighbours, a character and the one after it, with the given property. -/
def hasPair (property : Char → Char → Bool) : List Char → Bool
  | c :: d :: rest => property c d || hasPair property (d :: rest)
  | _ => false

/-- Whether a text can only be written with escapes. -/
def needsEscapes (text : List Char) : Bool :=
  text.any (!isAllowed ·) || hasPair (fun c d => c = ' ' && isLineBreak d) text ||
    if text.contains '\n' then text.getLast? = some ' '
    else hasPair (fun c d => isLineBreak c && d = ' ') text

/-- Whether a character at the front of a text means more than itself. -/
def isIndicator (c : Char) : Bool :=
  "#,[]\x7b\x7d&*!|>'\"%@`".toList.contains c

/-- Whether the front of a text means more than itself. -/
def startsSpecially : List Char → Bool
  | '-' :: '-' :: '-' :: _ => true
  | '.' :: '.' :: '.' :: _ => true
  | c :: rest =>
    isIndicator c || ((c = '-' || c = '?' || c = ':') && rest.head?.all isGapOrBreak) || c = ' '
  | [] => false

/-- Whether a text without line breaks means more than itself when it is written plain. -/
def meansMore (text : List Char) : Bool :=
  startsSpecially text || text.getLast? = some ' ' || text.getLast? = some ':' ||
    hasPair (fun c d => (c = ':' && isGapOrBreak d) || (isGapOrBreak c && d = '#')) text ||
    text.any isLineBreak

/-! ## The four ways to write a text -/

/-- A character in single quotes. -/
def singleQuotedChar (c : Char) : List Char :=
  if c = '\x27' then [c, c] else [c]

/-- The rest of a text in single quotes; a line after line breaks is indented. -/
def singleQuotedBody (indent : Nat) (afterBreak : Bool) : List Char → List Char
  | [] => if afterBreak then List.replicate indent ' ' else []
  | c :: rest =>
    if isLineBreak c then c :: singleQuotedBody indent true rest
    else
      (if afterBreak then List.replicate indent ' ' else []) ++ singleQuotedChar c ++
        singleQuotedBody indent false rest

/-- A text in single quotes. -/
def singleQuoted (indent : Nat) (text : List Char) : List Char :=
  '\x27' :: singleQuotedBody indent false text ++ ['\x27']

/-- A number in upper-case hexadecimal digits, padded with zeros. -/
def paddedHexadecimal (width n : Nat) : List Char :=
  let digits := (hexadecimal n).map Char.toUpper
  List.replicate (width - digits.length) '0' ++ digits

/-- A character in double quotes. -/
def doubleQuotedChar (c : Char) : List Char :=
  match c with
  | '\x00' => ['\\', '0']
  | '\x07' => ['\\', 'a']
  | '\x08' => ['\\', 'b']
  | '\t' => ['\\', 't']
  | '\n' => ['\\', 'n']
  | '\x0b' => ['\\', 'v']
  | '\x0c' => ['\\', 'f']
  | '\r' => ['\\', 'r']
  | '\x1b' => ['\\', 'e']
  | '"' => ['\\', '"']
  | '\\' => ['\\', '\\']
  | '\x85' => ['\\', 'N']
  | '\u2028' => ['\\', 'L']
  | '\u2029' => ['\\', 'P']
  | c =>
    if isAllowed c then [c]
    else if c.toNat ≤ 0xFF then ['\\', 'x'] ++ paddedHexadecimal 2 c.toNat
    else if c.toNat ≤ 0xFFFF then ['\\', 'u'] ++ paddedHexadecimal 4 c.toNat
    else ['\\', 'U'] ++ paddedHexadecimal 8 c.toNat

/-- A text in double quotes. -/
def doubleQuoted (text : List Char) : List Char :=
  '"' :: text.flatMap doubleQuotedChar ++ ['"']

/-- The header of a block of lines: an indentation hint if the text starts with a space or a break,
    and what becomes of the line breaks at its end. -/
def blockHeader (text : List Char) : List Char :=
  let hint := if text.head?.any (fun c => c = ' ' || isLineBreak c) then ['2'] else []
  let final := match text.reverse with
    | [] => ['-']
    | [c] => if isLineBreak c then ['+'] else ['-']
    | c :: d :: _ => if !isLineBreak c then ['-'] else if isLineBreak d then ['+'] else []
  '|' :: hint ++ final ++ ['\n']

/-- The lines of a block, each indented; an empty line is left empty. -/
def blockBody (indent : Nat) (atStart : Bool) : List Char → List Char
  | [] => []
  | c :: rest =>
    if isLineBreak c then c :: blockBody indent true rest
    else
      (if atStart then List.replicate indent ' ' else []) ++ c :: blockBody indent false rest

/-- A text as it is written after a key, with the line break that ends it; `indent` is the
    indentation of its further lines. -/
def write (indent : Nat) (text : List Char) : List Char :=
  if needsEscapes text then doubleQuoted text ++ ['\n']
  else if text.contains '\n' then
    let lines := blockHeader text ++ blockBody indent true text
    if text.getLast?.any isLineBreak then lines else lines ++ ['\n']
  else if isAmbiguous text || meansMore text then singleQuoted indent text ++ ['\n']
  else text ++ ['\n']

end Scalar

end Wireframe
