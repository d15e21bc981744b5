/-!
# Places in a source text

A place is given twice: as an offset in bytes of the text's UTF-8 form, and as a position for
people, a line and a column that both count from one. Columns count characters, and only a line
feed ends a line. A range covers the places from its start up to, and without, its stop.
-/

namespace Wireframe

/-- A line and a column, both counted from one. -/
structure Position where
  line : Nat
  column : Nat
  deriving DecidableEq, Repr

namespace Position

/-- The beginning of a text. -/
def start : Position := ⟨1, 1⟩

/-- The position after one more character. -/
def step (p : Position) (c : Char) : Position :=
  if c = '\n' then ⟨p.line + 1, 1⟩ else ⟨p.line, p.column + 1⟩

/-- The position after a text that begins at `p`. -/
def advance (p : Position) (text : List Char) : Position :=
  text.foldl step p

/-- Positions are ordered by line, then by column. -/
def order (p q : Position) : Ordering :=
  (compare p.line q.line).then (compare p.column q.column)

/-- A position as it is shown: `line:column`. -/
def display (p : Position) : String :=
  s!"{p.line}:{p.column}"

end Position

/-- The number of bytes in the UTF-8 form of a text. -/
def byteLength : List Char → Nat
  | [] => 0
  | c :: rest => c.utf8Size + byteLength rest

/-- The offsets from `start` up to, and without, `stop`. -/
structure Span where
  start : Nat
  stop : Nat
  deriving DecidableEq, Repr

namespace Span

/-- The number of bytes covered; none when the span is inverted. -/
def length (s : Span) : Nat :=
  s.stop - s.start

/-- Whether an offset is covered. -/
def contains (s : Span) (offset : Nat) : Bool :=
  s.start ≤ offset && offset < s.stop

end Span

/-- A stretch of source text, by its offsets and by the positions of its two ends. -/
structure Range where
  span : Span
  start : Position
  stop : Position
  deriving DecidableEq, Repr

namespace Range

/-- The range that covers nothing at a place. -/
def emptyAt (offset : Nat) (position : Position) : Range :=
  ⟨⟨offset, offset⟩, position, position⟩

/-- The range that covers nothing at the beginning of a text. -/
def origin : Range :=
  emptyAt 0 .start

/-- The range of `text` when it begins at the given place. -/
def ofText (offset : Nat) (position : Position) (text : List Char) : Range :=
  ⟨⟨offset, offset + byteLength text⟩, position, position.advance text⟩

/-- Whether a position is covered; the stop is not. -/
def contains (r : Range) (p : Position) : Bool :=
  (r.start.order p).isLE && (p.order r.stop).isLT

/-- Whether two ranges have an offset in common, judged by their ends. -/
def overlaps (r s : Range) : Bool :=
  r.span.start < s.span.stop && s.span.start < r.span.stop

/-- The range from the earlier of two starts to the later of two stops; of equal ones the first
    range's is kept. -/
def hull (r s : Range) : Range :=
  let (first, start) :=
    if s.span.start < r.span.start then (s.span.start, s.start) else (r.span.start, r.start)
  let (last, stop) :=
    if s.span.stop > r.span.stop then (s.span.stop, s.stop) else (r.span.stop, r.stop)
  ⟨⟨first, last⟩, start, stop⟩

/-- The smallest range that covers all of the given ones, if there are any. -/
def boundingBox? : List Range → Option Range
  | [] => none
  | r :: rest => some (rest.foldl hull r)

/-- A range as it is shown: `line:column..line:column`. -/
def display (r : Range) : String :=
  r.start.display ++ ".." ++ r.stop.display

end Range

/-- A source with the line feed that ends its last line; an empty source has no line to end. -/
def endLastLine (source : List Char) : List Char :=
  if source.isEmpty || source.getLast? = some '\n' then source else source ++ ['\n']

end Wireframe
