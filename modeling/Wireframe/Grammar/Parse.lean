import Wireframe.Grammar.Expectation

/-!
# Parsing with recovery

A *parse* of something reads tokens from a cursor. It gives what it was to parse, or nothing when
the tokens do not allow it; either way it leaves the cursor where it stopped, with the errors that
it reported. There is one token of lookahead, by kind, and no way back.

The language goes line by line, and so does recovery: after an error the rest of the line is
skipped, and the rule that was active goes on with the next line. Once there are as many errors as
the limit allows, loops end and nothing more is reported.
-/

namespace Wireframe

/-- What stays the same during a parse. -/
structure ParseContext where
  /-- The number of errors that ends the parse. -/
  limit : Nat
  /-- The place after the last token. -/
  finish : Range

/-- Where a parse stands. -/
structure Cursor where
  /-- The tokens that are left. -/
  rest : List Token
  /-- The rules being parsed, outermost first. -/
  path : List Rule
  /-- The errors reported so far, in order. -/
  errors : List ParseError

/-- A parse of an `α`. -/
def Parse (α : Type) : Type :=
  ParseContext → Cursor → Option α × Cursor

namespace Parse

variable {α β : Type}

/-- Gives `x` and reads nothing. -/
def give (x : α) : Parse α := fun _ s => (some x, s)

/-- Gives nothing and reads nothing. -/
def fail : Parse α := fun _ s => (none, s)

/-- One parse after the other; the second is left out when the first gives nothing. -/
def andThen (p : Parse α) (f : α → Parse β) : Parse β := fun ctx s =>
  match p ctx s with
  | (some x, s') => f x ctx s'
  | (none, s') => (none, s')

instance : Monad Parse where
  pure := give
  bind := andThen

/-- The kind of the next token. -/
def peek : Parse (Option TokenKind) := fun _ s =>
  (some (s.rest.head?.map Token.kind), s)

/-- The next token, which is read. -/
def next : Parse Token := fun _ s =>
  match s.rest with
  | [] => (none, s)
  | t :: rest => (some t, { s with rest := rest })

/-- Whether the limit on errors is reached. -/
def isHalted (ctx : ParseContext) (s : Cursor) : Bool :=
  ctx.limit ≤ s.errors.length

/-- Reports that an expectation was not met by the given token or by the end of the input. -/
def reportAt (found : Option Token) (e : Expectation) : Parse Unit := fun ctx s =>
  if isHalted ctx s then (some (), s)
  else
    let range := (found.map Token.range).getD ctx.finish
    (some (), { s with errors := s.errors ++ [⟨e, found, range, s.path⟩] })

/-- Reports that an expectation is not met at the cursor. -/
def report (e : Expectation) : Parse Unit := fun ctx s =>
  reportAt s.rest.head? e ctx s

/-- Reports that an expectation is not met at the cursor, and gives nothing. -/
def refuse (e : Expectation) : Parse α :=
  andThen (report e) fun _ => fail

/-- The next token if it is of the given kind; otherwise an expectation is not met. -/
def expect (kind : TokenKind) (e : Expectation) : Parse Token := do
  if (← peek) = some kind then next else refuse e

/-- Turns giving nothing into an answer. -/
def attempt (p : Parse α) : Parse (Option α) := fun ctx s =>
  let (x, s') := p ctx s
  (some x, s')

/-- Reads up to and with the next line end. -/
def skipLine : Parse Unit := fun _ s =>
  (some (), { s with rest := (s.rest.dropWhile (·.kind ≠ .lineEnd)).tail })

/-- A parse that skips the rest of the line when it gives nothing. -/
def orSkipLine (p : Parse α) : Parse α := fun ctx s =>
  match p ctx s with
  | (some x, s') => (some x, s')
  | (none, s') => ((none : Option α), (skipLine ctx s').2)

/-- A parse as part of a rule. -/
def within (rule : Rule) (p : Parse α) : Parse α := fun ctx s =>
  let (x, s') := p ctx { s with path := s.path ++ [rule] }
  (x, { s' with path := s'.path.dropLast })

/-- Parses by `body` again and again, as long as there is a token whose kind does not stop the loop.
    What `body` gives is collected. -/
def loop (stops : TokenKind → Bool) (body : TokenKind → Parse α) : Parse (List α) := fun ctx s =>
  match s.rest.head? with
  | none => (some [], s)
  | some t =>
    if isHalted ctx s || stops t.kind then (some [], s)
    else
      let (x, s') := body t.kind ctx s
      if s'.rest.length < s.rest.length then
        let (xs, s'') := loop stops body ctx s'
        (some (x.toList ++ xs.getD []), s'')
      else (some x.toList, s')
  termination_by _ s => s.rest.length

/-- Parses by `body` again and again, as long as the next token is of the given kind. All is lost as
    soon as `body` gives nothing. -/
def repeatAt (kind : TokenKind) (body : Parse α) : Parse (List α) := fun ctx s =>
  if s.rest.head?.map Token.kind = some kind then
    match body ctx s with
    | (none, s') => (none, s')
    | (some x, s') =>
      if s'.rest.length < s.rest.length then
        let (xs, s'') := repeatAt kind body ctx s'
        (xs.map (x :: ·), s'')
      else (some [x], s')
  else (some [], s)
  termination_by _ s => s.rest.length

end Parse

end Wireframe
