import Wireframe.Proofs.Token.Line

/-!
# Lexing line by line

Where a line ends a text can be cut in two, and its halves lexed by themselves: what the second half
has in it is only moved, by the bytes and the lines of the first (`Lexing.ofText_append`). So the
lexer comes to each line as it came to the first one.

* `flatMap_image_cut`: the pieces of a text are the text;
* `locate_append`, `locate_moved`: the ranges of pieces, and those of the same pieces elsewhere;
* `Lexing.sift_cons`, `Lexing.sift_append`: pieces are sifted one by one, and the lexer remembers
  the line that it is on (`LineState.after`).
-/

namespace Wireframe

/-! ## Places further down -/

/-- A position some lines further down. -/
def Position.down (lines : Nat) (p : Position) : Position :=
  ⟨p.line + lines, p.column⟩

/-- A range some bytes and some lines further down. -/
def Range.moved (bytes lines : Nat) (r : Range) : Range :=
  ⟨⟨r.span.start + bytes, r.span.stop + bytes⟩, r.start.down lines, r.stop.down lines⟩

/-- A token some bytes and some lines further down. -/
def Token.moved (bytes lines : Nat) (t : Token) : Token :=
  { t with range := t.range.moved bytes lines }

/-- A lexing error some bytes and some lines further down. -/
def LexError.moved (bytes lines : Nat) (e : LexError) : LexError :=
  { e with range := e.range.moved bytes lines }

namespace Lexing

/-- All that was lexed, some bytes and some lines further down. -/
def moved (bytes lines : Nat) (l : Lexing) : Lexing :=
  ⟨l.tokens.map (.moved bytes lines), l.comments.map (.moved bytes lines),
    l.errors.map (.moved bytes lines)⟩

/-- What was lexed in one text, and then in another. -/
def append (l l' : Lexing) : Lexing :=
  ⟨l.tokens ++ l'.tokens, l.comments ++ l'.comments, l.errors ++ l'.errors⟩

end Lexing

namespace Position

theorem advance_append (p : Position) (text more : List Char) :
    p.advance (text ++ more) = (p.advance text).advance more :=
  List.foldl_append

theorem advance_down (lines : Nat) (p : Position) (text : List Char) :
    (p.down lines).advance text = (p.advance text).down lines := by
  induction text generalizing p with
  | nil => rfl
  | cons c text ih =>
    have hstep : (p.down lines).step c = (p.step c).down lines := by
      unfold step
      split
      · exact congrArg (Position.mk · 1) (Nat.add_right_comm p.line lines 1)
      · rfl
    exact (congrArg (·.advance text) hstep).trans (ih (p.step c))

theorem line_advance_of_notMem {p : Position} {text : List Char} (h : '\n' ∉ text) :
    (p.advance text).line = p.line := by
  induction text generalizing p with
  | nil => rfl
  | cons c text ih =>
    obtain ⟨hc, htext⟩ := not_or.1 (mt List.mem_cons.2 h)
    refine (ih htext).trans ?_
    rw [step, if_neg (Ne.symm hc)]

/-- After lines that end, a text goes on at the beginning of a line. -/
theorem advance_lines {text : List Char} (htext : text = [] ∨ text.getLast? = some '\n') :
    start.advance text = start.down (text.count '\n') := by
  refine line_induction (motive := fun text => start.advance text =
    start.down (text.count '\n')) rfl ?_ htext
  intro line text hline ih
  have hstep : (start.advance line).step '\n' = start.down 1 :=
    congrArg (fun n => Position.mk (n + 1) 1) (line_advance_of_notMem hline)
  rw [advance_append]
  change ((start.advance line).step '\n').advance text = _
  rw [hstep, advance_down, ih, List.count_append, List.count_cons_self, List.count_eq_zero.2 hline]
  exact congrArg (Position.mk · 1) (by rw [Nat.zero_add]; rfl)

end Position

theorem byteLength_append (text more : List Char) :
    byteLength (text ++ more) = byteLength text + byteLength more := by
  induction text with
  | nil => exact (Nat.zero_add _).symm
  | cons c text ih => rw [List.cons_append, byteLength, byteLength, ih, Nat.add_assoc]

/-- Fronts of one text compare by their bytes as they do by their characters. -/
theorem byteLength_le_iff {word rest word' rest' : List Char} (h : word' ++ rest' = word ++ rest) :
    byteLength word' ≤ byteLength word ↔ word'.length ≤ word.length := by
  have hlonger : ∀ (front more : List Char), byteLength (front ++ more) ≤ byteLength front ↔
      (front ++ more).length ≤ front.length := by
    intro front more
    rw [byteLength_append, List.length_append]
    cases more with
    | nil => simp [byteLength]
    | cons c more =>
      have := c.utf8Size_pos
      rw [byteLength, List.length_cons]
      omega
  rcases List.append_eq_append_iff.1 h with ⟨more, rfl, -⟩ | ⟨more, rfl, -⟩
  · rw [byteLength_append, List.length_append]
    exact iff_of_true (Nat.le_add_right _ _) (Nat.le_add_right _ _)
  · exact hlonger word more

/-! ## The pieces of a text and their ranges -/

theorem flatMap_image_consStray (c : Char) (pieces : List Piece) :
    (consStray c pieces).flatMap Piece.image = c :: pieces.flatMap Piece.image := by
  cases pieces with
  | nil => rfl
  | cons piece pieces => cases piece <;> rfl

/-- The pieces of a text, one after the other, are the text. -/
theorem flatMap_image_cut (locale : Locale) (text : List Char) :
    (cut locale.regularTerminals text).flatMap Piece.image = text := by
  induction text using cut_induction locale with
  | nil => rw [cut_nil, List.flatMap_nil]
  | stray c rest hnone ih => rw [cut_none hnone, flatMap_image_consStray, ih]
  | lexeme kind image rest _ hlexeme ih =>
    rw [cut_append hlexeme, List.flatMap_cons, Piece.image, ih]

theorem locate_append (offset : Nat) (position : Position) (pieces more : List Piece) :
    locate offset position (pieces ++ more) = locate offset position pieces ++
      locate (offset + byteLength (pieces.flatMap Piece.image))
        (position.advance (pieces.flatMap Piece.image)) more := by
  induction pieces generalizing offset position with
  | nil => rfl
  | cons piece pieces ih =>
    rw [List.flatMap_cons, byteLength_append, Position.advance_append, ← Nat.add_assoc]
    exact congrArg _ (ih (offset + byteLength piece.image) (position.advance piece.image))

/-- The range of the same text further down. -/
theorem Range.ofText_moved (bytes lines offset : Nat) (position : Position) (text : List Char) :
    Range.ofText (offset + bytes) (position.down lines) text =
      (Range.ofText offset position text).moved bytes lines := by
  rw [Range.ofText, Position.advance_down, Nat.add_right_comm]
  rfl

/-- The ranges of the same pieces further down. -/
theorem locate_moved (bytes lines offset : Nat) (position : Position) (pieces : List Piece) :
    locate (offset + bytes) (position.down lines) pieces =
      (locate offset position pieces).map fun p => (p.1, p.2.moved bytes lines) := by
  induction pieces generalizing offset position with
  | nil => rfl
  | cons piece pieces ih =>
    rw [locate, locate, List.map_cons, Range.ofText_moved, ← ih]
    rfl

/-! ## Sifting pieces one by one -/

namespace LineState

/-- What the lexer remembers of its line after one more piece. -/
def next (line : LineState) : Piece → LineState
  | .stray _ | .lexeme .blanks _ => line
  | .lexeme .comment _ => { line with isComment := !line.hasTokens }
  | .lexeme .lineEnd _ => fresh
  | .lexeme _ _ => { line with hasTokens := true }

/-- What the lexer remembers of its line after some pieces. -/
def after (line : LineState) (pieces : List Piece) : LineState :=
  pieces.foldl next line

end LineState

namespace Lexing

theorem append_assoc (l l' l'' : Lexing) : (l.append l').append l'' = l.append (l'.append l'') := by
  simp [append]

theorem sift_lineEnd (line : LineState) (image : List Char) (range : Range) :
    sift line [(.lexeme .lineEnd image, range)] =
      if line.isComment then empty else empty.consToken ⟨.lineEnd, String.ofList image, range⟩ := by
  rw [sift]
  rfl

/-- A piece is sifted by itself, and what comes after it by what the lexer then remembers. -/
theorem sift_cons (line : LineState) (piece : Piece) (range : Range)
    (rest : List (Piece × Range)) : sift line ((piece, range) :: rest) =
      (sift line [(piece, range)]).append (sift (line.next piece) rest) := by
  cases piece with
  | stray image => cases image <;> rfl
  | lexeme kind image =>
    cases kind with
    | lineEnd =>
      rw [sift, sift]
      split <;> rfl
    | _ => rfl

theorem sift_append (line : LineState) (pieces more : List (Piece × Range)) :
    sift line (pieces ++ more) =
      (sift line pieces).append (sift (line.after (pieces.map Prod.fst)) more) := by
  induction pieces generalizing line with
  | nil => rfl
  | cons p pieces ih =>
    rw [List.cons_append, sift_cons, sift_cons _ _ _ pieces, ih, append_assoc]
    rfl

theorem sift_moved (bytes lines : Nat) (line : LineState) (pieces : List (Piece × Range)) :
    sift line (pieces.map fun p => (p.1, p.2.moved bytes lines)) =
      (sift line pieces).moved bytes lines := by
  induction pieces generalizing line with
  | nil => rfl
  | cons p pieces ih =>
    have happend : ∀ l l' : Lexing, (l.append l').moved bytes lines =
        (l.moved bytes lines).append (l'.moved bytes lines) := by simp [append, moved]
    have hone : ∀ (piece : Piece) (range : Range),
        sift line [(piece, range.moved bytes lines)] =
          (sift line [(piece, range)]).moved bytes lines := by
      intro piece range
      cases piece with
      | stray image => cases image <;> rfl
      | lexeme kind image =>
        cases kind with
        | lineEnd =>
          rw [sift_lineEnd, sift_lineEnd]
          split <;> rfl
        | _ => rfl
    rw [List.map_cons, sift_cons, sift_cons _ _ _ pieces, happend, ih, hone]

/-- All that can be wrong with pieces is that some are stray. -/
theorem fault_of_mem_sift {line : LineState} {pieces : List (Piece × Range)} {e : LexError}
    (h : e ∈ (sift line pieces).errors) : ∃ first count, e.fault = .stray first count := by
  induction pieces generalizing line with
  | nil => exact absurd h List.not_mem_nil
  | cons p pieces ih =>
    rw [sift_cons] at h
    rcases List.mem_append.1 h with h | h
    · obtain ⟨piece, range⟩ := p
      cases piece with
      | stray image =>
        cases image with
        | nil => exact absurd h List.not_mem_nil
        | cons first image => exact ⟨first, _, congrArg LexError.fault (List.mem_singleton.1 h)⟩
      | lexeme kind image =>
        cases kind with
        | lineEnd =>
          rw [sift_lineEnd] at h
          split at h <;> exact absurd h List.not_mem_nil
        | _ => exact absurd h List.not_mem_nil
    · exact ih h

end Lexing

/-! ## Texts in two halves -/

section Halves

variable {text : List Char}

theorem map_fst_locate (offset : Nat) (position : Position) (pieces : List Piece) :
    (locate offset position pieces).map Prod.fst = pieces := by
  induction pieces generalizing offset position with
  | nil => rfl
  | cons piece pieces ih => exact congrArg _ (ih _ _)

/-- Where a line ends, the lexer remembers nothing of it. -/
theorem after_cut_lines (locale : Locale) (htext : text = [] ∨ text.getLast? = some '\n') :
    LineState.fresh.after (cut locale.regularTerminals text) = .fresh := by
  refine line_induction (motive := fun text =>
    LineState.fresh.after (cut locale.regularTerminals text) = .fresh) ?_ ?_ htext
  · rw [cut_nil]
    rfl
  · intro line text hline ih
    obtain ⟨pieces, image, -, hcut⟩ := locale.cut_line hline
    rw [hcut, LineState.after, List.foldl_append]
    exact ih

/-- What is lexed in the second half is moved by the bytes and the lines of the first. -/
theorem Lexing.ofText_lines (locale : Locale) {text : List Char}
    (htext : text = [] ∨ text.getLast? = some '\n') (more : List Char) :
    ofText locale (text ++ more) = (ofText locale text).append
      ((ofText locale more).moved (byteLength text) (text.count '\n')) := by
  rw [ofText, Locale.pieces, locale.cut_lines htext, ofPieces, locate_append, sift_append,
    map_fst_locate, after_cut_lines locale htext, flatMap_image_cut,
    Position.advance_lines htext, locate_moved, sift_moved]
  rfl

/-- A text is lexed like its halves, if the first one is empty or ends with a line feed; what is in
    the second is moved by the bytes and the lines of the first, in messages, too. -/
theorem Lexing.ofText_append (locale : Locale) {text : List Char}
    (htext : text = [] ∨ text.getLast? = some '\n') (more : List Char) :
    (ofText locale (text ++ more)).tokens = (ofText locale text).tokens ++
        (ofText locale more).tokens.map (.moved (byteLength text) (text.count '\n')) ∧
      (ofText locale (text ++ more)).comments = (ofText locale text).comments ++
        (ofText locale more).comments.map (.moved (byteLength text) (text.count '\n')) ∧
      (ofText locale (text ++ more)).errors = (ofText locale text).errors ++
        (ofText locale more).errors.map (.moved (byteLength text) (text.count '\n')) ∧
      ∀ e ∈ (ofText locale more).errors, ∃ first count, e.fault = .stray first count ∧
        (e.moved (byteLength text) (text.count '\n')).message =
          "unexpected character: ->" ++ first.toString ++ "<- at offset: " ++
            toString (e.range.span.start + byteLength text) ++ ", skipped " ++ toString count ++
            " characters." := by
  rw [ofText_lines locale htext]
  refine ⟨rfl, rfl, rfl, fun e he => ?_⟩
  obtain ⟨first, count, hfault⟩ := fault_of_mem_sift he
  exact ⟨first, count, hfault, by rw [LexError.message, LexError.moved, hfault]; rfl⟩

theorem Lexing.ofText_append_umlaut :
    ("Page: ä\n".toList = [] ∨ "Page: ä\n".toList.getLast? = some '\n') ∧
      (ofText .english ("Page: ä\n".toList ++ "ö // c\n".toList)).errors =
        (ofText .english "Page: ä\n".toList).errors ++
          (ofText .english "ö // c\n".toList).errors.map (.moved 9 1) :=
  have htext : "Page: ä\n".toList = [] ∨ "Page: ä\n".toList.getLast? = some '\n' := .inr rfl
  ⟨htext, (ofText_append .english htext "ö // c\n".toList).2.2.1⟩

end Halves

end Wireframe
