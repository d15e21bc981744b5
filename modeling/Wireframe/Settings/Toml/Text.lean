/-!
# Texts and keys in TOML

The four kinds of quoted texts, and the keys, which are quoted or bare and can be joined by dots.
Every reader here takes the front of a text and gives what it read and the rest. The readers of
quoted texts begin after the opening delimiter.
-/

namespace Wireframe.Toml

/-- Whether a character may stand in a line as it is: any but the controls, except the tab. -/
def isPlain (c : Char) : Bool :=
  c = '\t' || (0x20 ≤ c.toNat && c.toNat ≠ 0x7f)

/-- Whether a character separates words on a line. -/
def isBlank (c : Char) : Bool :=
  c = ' ' || c = '\t'

/-- A text without the blanks at its front. -/
def skipBlanks (text : List Char) : List Char :=
  text.dropWhile isBlank

/-- The value of a digit in a base up to sixteen. -/
def digit? (base : Nat) (c : Char) : Option Nat :=
  let value? :=
    if c.isDigit then some (c.toNat - '0'.toNat)
    else if 'a' ≤ c && c ≤ 'f' then some (c.toNat - 'a'.toNat + 10)
    else if 'A' ≤ c && c ≤ 'F' then some (c.toNat - 'A'.toNat + 10)
    else none
  value?.filter (· < base)

/-- The character with a code point. -/
def charOfCode? (n : Nat) : Option Char :=
  if h : n.isValidChar then some (Char.ofNatAux n h) else none

/-- The character that a backslash and a letter stand for. -/
def escaped? : Char → Option Char
  | 'b' => some '\x08'
  | 't' => some '\t'
  | 'n' => some '\n'
  | 'f' => some '\x0c'
  | 'r' => some '\r'
  | '"' => some '"'
  | '\\' => some '\\'
  | _ => none

/-- Where the reader of a text with escapes stands. -/
inductive EscapeState
  | plain
  /-- After a backslash. -/
  | backslash
  /-- Within a code point, with some digits still to come. -/
  | code (left value : Nat)
  /-- After a backslash that must be followed by a line break, possibly with blanks before it. -/
  | lineEnd
  /-- After a backslash and a line break: blanks and line breaks are left out. -/
  | gap

/-- Puts a character in front of a text that was read. -/
def consRead (c : Char) (read : Option (List Char × List Char)) : Option (List Char × List Char) :=
  read.map fun (text, rest) => (c :: text, rest)

/-- The character after a backslash, or how many digits of a code point come. -/
def escape? (c : Char) : Option (Char ⊕ Nat) :=
  if c = 'u' then some (.inr 4)
  else if c = 'U' then some (.inr 8)
  else (escaped? c).map .inl

/-- A text in double quotes on one line. -/
def basicText : EscapeState → List Char → Option (List Char × List Char)
  | _, [] => none
  | .plain, c :: rest =>
    if c = '"' then some ([], rest)
    else if c = '\\' then basicText .backslash rest
    else if isPlain c then consRead c (basicText .plain rest)
    else none
  | .backslash, c :: rest =>
    match escape? c with
    | some (.inl d) => consRead d (basicText .plain rest)
    | some (.inr digits) => basicText (.code digits 0) rest
    | none => none
  | .code left value, c :: rest =>
    match digit? 16 c with
    | some digit =>
      let value := 16 * value + digit
      if left ≤ 1 then
        match charOfCode? value with
        | some d => consRead d (basicText .plain rest)
        | none => none
      else basicText (.code (left - 1) value) rest
    | none => none
  | .lineEnd, _ => none
  | .gap, _ => none

/-- A text in three double quotes, which may go over several lines. Up to two quotes may stand
    before the closing ones. -/
def basicLines : EscapeState → List Char → Option (List Char × List Char)
  | _, [] => none
  | .plain, '"' :: '"' :: '"' :: '"' :: '"' :: rest => some (['"', '"'], rest)
  | .plain, '"' :: '"' :: '"' :: '"' :: rest => some (['"'], rest)
  | .plain, '"' :: '"' :: '"' :: rest => some ([], rest)
  | .plain, '\r' :: '\n' :: rest => consRead '\n' (basicLines .plain rest)
  | .plain, c :: rest =>
    if c = '\\' then basicLines .backslash rest
    else if isPlain c || c = '\n' then consRead c (basicLines .plain rest)
    else none
  | .backslash, '\r' :: '\n' :: rest => basicLines .gap rest
  | .backslash, c :: rest =>
    match escape? c with
    | some (.inl d) => consRead d (basicLines .plain rest)
    | some (.inr digits) => basicLines (.code digits 0) rest
    | none =>
      if c = '\n' then basicLines .gap rest
      else if isBlank c then basicLines .lineEnd rest
      else none
  | .code left value, c :: rest =>
    match digit? 16 c with
    | some digit =>
      let value := 16 * value + digit
      if left ≤ 1 then
        match charOfCode? value with
        | some d => consRead d (basicLines .plain rest)
        | none => none
      else basicLines (.code (left - 1) value) rest
    | none => none
  | .lineEnd, '\r' :: '\n' :: rest => basicLines .gap rest
  | .lineEnd, c :: rest =>
    if c = '\n' then basicLines .gap rest
    else if isBlank c then basicLines .lineEnd rest
    else none
  | .gap, '"' :: '"' :: '"' :: '"' :: '"' :: rest => some (['"', '"'], rest)
  | .gap, '"' :: '"' :: '"' :: '"' :: rest => some (['"'], rest)
  | .gap, '"' :: '"' :: '"' :: rest => some ([], rest)
  | .gap, '\r' :: '\n' :: rest => basicLines .gap rest
  | .gap, c :: rest =>
    if c = '\n' || isBlank c then basicLines .gap rest
    else if c = '\\' then basicLines .backslash rest
    else if isPlain c then consRead c (basicLines .plain rest)
    else none

/-- A text in single quotes on one line. -/
def literalText : List Char → Option (List Char × List Char)
  | [] => none
  | c :: rest =>
    if c = '\x27' then some ([], rest)
    else if isPlain c then consRead c (literalText rest)
    else none

/-- A text in three single quotes, which may go over several lines. Up to two quotes may stand
    before the closing ones. -/
def literalLines : List Char → Option (List Char × List Char)
  | [] => none
  | '\x27' :: '\x27' :: '\x27' :: '\x27' :: '\x27' :: rest => some (['\x27', '\x27'], rest)
  | '\x27' :: '\x27' :: '\x27' :: '\x27' :: rest => some (['\x27'], rest)
  | '\x27' :: '\x27' :: '\x27' :: rest => some ([], rest)
  | '\r' :: '\n' :: rest => consRead '\n' (literalLines rest)
  | c :: rest => if isPlain c || c = '\n' then consRead c (literalLines rest) else none

/-- A text without the line break at its front. -/
def skipBreak : List Char → List Char
  | '\n' :: rest => rest
  | '\r' :: '\n' :: rest => rest
  | text => text

/-- A quoted text of any kind. -/
def quotedText? : List Char → Option (List Char × List Char)
  | '"' :: '"' :: '"' :: rest => basicLines .plain (skipBreak rest)
  | '"' :: rest => basicText .plain rest
  | '\x27' :: '\x27' :: '\x27' :: rest => literalLines (skipBreak rest)
  | '\x27' :: rest => literalText rest
  | _ => none

/-! ## Keys -/

/-- Whether a character may stand in a bare key. -/
def isBare (c : Char) : Bool :=
  c.isAlphanum || c = '_' || c = '-'

/-- One key. -/
def key? : List Char → Option (String × List Char)
  | '"' :: rest => (basicText .plain rest).map fun (key, rest) => (String.ofList key, rest)
  | '\x27' :: rest => (literalText rest).map fun (key, rest) => (String.ofList key, rest)
  | text =>
    let key := text.takeWhile isBare
    if key.isEmpty then none else some (String.ofList key, text.drop key.length)

/-- How many keys a path can have, and how deep values can be nested. -/
def depthLimit : Nat := 79

/-- At most the given number of keys joined by dots, and the rest after blanks. -/
def keys? : Nat → List Char → Option (List String × List Char)
  | 0, _ => none
  | limit + 1, text => do
    let (key, rest) ← key? (skipBlanks text)
    match skipBlanks rest with
    | '.' :: rest =>
      let (keys, rest) ← keys? limit rest
      return (key :: keys, rest)
    | rest => return ([key], rest)

/-- A path, and the rest after blanks. A path that is too long is none. -/
def path? (text : List Char) : Option (List String × List Char) :=
  keys? depthLimit text

end Wireframe.Toml
