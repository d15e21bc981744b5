import Wireframe.Proofs.Grammar.Exchange
import Wireframe.Proofs.Token.Shift
import Wireframe.Reading

/-!
# What is seen of a reading

Two texts that differ in their layout only are read alike: not to the same tokens, as these are at
other places, but to tokens of which the same is seen. A *view* says how much of a position is seen.
Never seen are byte offsets, and how a line end is written or how long it is.

* `Parsing.viewed_congr`: tokens of which the same is seen are parsed to scenes and errors of which
  the same is seen, as a parse does not look at more.
* `Reading.viewed_congr`: so texts that are lexed alike are read alike.
* `Piece.Alike`: pieces that are lexed alike, as they differ in line ends and in blanks that do not
  change what is seen of the positions after them (`Lexing.viewed_congr`).
-/

namespace Wireframe

/-- How much of a position is seen: of no position more than of the one a character before it, and
    all of the beginning of a text. -/
structure View where
  /-- What is seen of a position. -/
  position : Position → Position
  start_eq : position .start = .start
  step_congr : ∀ {p p' : Position}, position p = position p' →
    ∀ c, position (p.step c) = position (p'.step c)

namespace View

/-- Lines and columns are seen. -/
def positions : View where
  position := id
  start_eq := rfl
  step_congr h c := congrArg (Position.step · c) h

/-- Lines are seen, columns are not. -/
def lines : View where
  position p := ⟨p.line, 1⟩
  start_eq := rfl
  step_congr {p p'} h c := by
    have hline : p.line = p'.line := (Position.mk.inj h).1
    unfold Position.step
    split <;> simp [hline]

theorem advance_congr (v : View) {p p' : Position} (h : v.position p = v.position p')
    (text : List Char) : v.position (p.advance text) = v.position (p'.advance text) := by
  induction text generalizing p p' with
  | nil => exact h
  | cons c text ih => exact ih (v.step_congr h c)

end View

/-! ## What is seen of tokens, errors and scenes -/

/-- What is seen of a range: its positions, and the number of bytes unless it is a line end's. -/
def Range.viewed (v : View) (isLineEnd : Bool) (r : Range) : Range :=
  ⟨⟨0, if isLineEnd then 0 else r.span.length⟩, v.position r.start, v.position r.stop⟩

/-- What is seen of a token. -/
def Token.viewed (v : View) (t : Token) : Token :=
  ⟨t.kind, if t.kind = .lineEnd then "\n" else t.image, t.range.viewed v (t.kind = .lineEnd)⟩

/-- What is seen of a lexing error. -/
def LexError.viewed (v : View) (e : LexError) : LexError :=
  ⟨e.fault, e.range.viewed v false⟩

/-- What is seen of a parse error. -/
def ParseError.viewed (v : View) (e : ParseError) : ParseError :=
  ⟨e.expectation, e.found.map (Token.viewed v), e.range.viewed v (e.found.any (·.kind = .lineEnd)),
    e.path⟩

/-- What is seen of a scene. -/
def Scene.viewed (v : View) (s : Scene) : Scene :=
  s.map (Token.viewed v)

/-- What is seen of a lexing. -/
def Lexing.viewed (v : View) (l : Lexing) : Lexing :=
  ⟨l.tokens.map (Token.viewed v), l.comments.map (Token.viewed v), l.errors.map (LexError.viewed v)⟩

/-- What is seen of a parsing. -/
def Parsing.viewed (v : View) (p : Parsing) : Parsing :=
  ⟨p.scene.viewed v, p.errors.map (ParseError.viewed v)⟩

/-- What is seen of a reading. -/
def Reading.viewed (v : View) : Reading → Reading
  | success locale scene tokens => success locale (scene.viewed v) (tokens.map (Token.viewed v))
  | lexErrors errors => lexErrors (errors.map (LexError.viewed v))
  | parseErrors locale errors tokens =>
    parseErrors locale (errors.map (ParseError.viewed v)) (tokens.map (Token.viewed v))

variable {v : View}

/-! ## Parsing -/

theorem Range.viewed_viewed (v : View) (isLineEnd : Bool) (r : Range) :
    (r.viewed v isLineEnd).viewed .positions isLineEnd = r.viewed v isLineEnd := by
  cases isLineEnd <;> rfl

theorem Token.viewed_viewed (v : View) (t : Token) :
    (t.viewed v).viewed .positions = t.viewed v := by
  have himage : ∀ image : String, (if t.kind = .lineEnd then "\n" else
      if t.kind = .lineEnd then "\n" else image) = if t.kind = .lineEnd then "\n" else image := by
    intro image
    split <;> rfl
  exact congrArg₂ (Token.mk t.kind) (himage _) (t.range.viewed_viewed v _)

theorem Token.isRenaming_viewed (v : View) : IsRenaming (Token.viewed v) :=
  .of_image (fun _ => rfl) fun t ht => by simp [viewed, ht]

namespace Parsing

/-- Where tokens end is seen of the last one. -/
theorem viewed_finishOf (v : View) (tokens : List Token) :
    (finishOf (tokens.map (Token.viewed v))).viewed .positions false =
      (finishOf tokens).viewed v false := by
  rw [finishOf, finishOf, List.getLast?_map]
  cases tokens.getLast? with
  | none =>
    change Range.mk ⟨0, 0⟩ .start .start = ⟨⟨0, 0⟩, v.position .start, v.position .start⟩
    rw [v.start_eq]
  | some last =>
    simp only [Option.map_some, Range.viewed, Range.emptyAt, Span.length, Nat.sub_self]
    rfl

/-- What is seen of an error is told by what is seen of the token found and of the end. -/
theorem viewed_error (v : View) {limit : Nat} {tokens : List Token} {e : ParseError}
    (he : e ∈ (ofTokens limit tokens).errors) : e.viewed v =
      (e.map (Token.viewed v)
        (finishOf ((kept tokens).map (Token.viewed v)))).viewed .positions := by
  have hat : e.range = _ := isAt_of_mem_errors he
  obtain ⟨expectation, found, range, path⟩ := e
  cases found with
  | none =>
    obtain rfl : range = finishOf (kept tokens) := hat
    exact congrArg (ParseError.mk expectation none · path) (viewed_finishOf v (kept tokens)).symm
  | some t =>
    obtain rfl : range = t.range := hat
    exact congrArg₂ (ParseError.mk expectation · · path) (congrArg some (t.viewed_viewed v).symm)
      (t.range.viewed_viewed v _).symm

theorem viewed_congr {tokens tokens' : List Token}
    (h : tokens.map (Token.viewed v) = tokens'.map (Token.viewed v)) (limit : Nat) :
    (ofTokens limit tokens).viewed v = (ofTokens limit tokens').viewed v := by
  have hparse := congrArg (ofTokens limit) h
  rw [ofTokens_exchanged (Token.isRenaming_viewed v),
    ofTokens_exchanged (Token.isRenaming_viewed v)] at hparse
  have herrors : ∀ tokens, (ofTokens limit tokens).errors.map (ParseError.viewed v) =
      ((ofTokens limit tokens).map (Token.viewed v)
        (finishOf ((kept tokens).map (Token.viewed v)))).errors.map
          (ParseError.viewed .positions) := by
    intro tokens
    rw [Parsing.map, List.map_map]
    exact List.map_congr_left fun e he => viewed_error v he
  refine congrArg₂ Parsing.mk (congrArg Parsing.scene hparse) ?_
  rw [herrors, herrors, hparse]

end Parsing

/-! ## Reading -/

namespace Reading

theorem viewed_congr {locale : Locale} {text text' : List Char}
    (h : (Lexing.ofText locale text).viewed v = (Lexing.ofText locale text').viewed v)
    (limit : Nat) :
    (inLocale locale limit text).viewed v = (inLocale locale limit text').viewed v := by
  have htokens := congrArg Lexing.tokens h
  have hcomments := congrArg Lexing.comments h
  have herrors := congrArg Lexing.errors h
  have hparse := Parsing.viewed_congr htokens limit
  have hscene := congrArg Parsing.scene hparse
  have hfaults := congrArg Parsing.errors hparse
  dsimp only [Lexing.viewed, Parsing.viewed] at htokens hcomments herrors hscene hfaults
  have hlexed : (Lexing.ofText locale text).hasErrors = (Lexing.ofText locale text').hasErrors := by
    have := congrArg List.isEmpty herrors
    rw [List.isEmpty_map, List.isEmpty_map] at this
    rw [Lexing.hasErrors, Lexing.hasErrors, this]
  have hparsed : (Parsing.ofTokens limit (Lexing.ofText locale text).tokens).hasErrors =
      (Parsing.ofTokens limit (Lexing.ofText locale text').tokens).hasErrors := by
    have := congrArg List.isEmpty hfaults
    rw [List.isEmpty_map, List.isEmpty_map] at this
    rw [Parsing.hasErrors, Parsing.hasErrors, this]
  unfold inLocale
  dsimp only
  rw [hlexed, hparsed]
  split
  · exact congrArg lexErrors herrors
  split
  · exact congrArg₂ (parseErrors locale) hfaults htokens
  · refine congrArg₂ (success locale) ?_ htokens
    have hpages := congrArg Scene.pages hscene
    have hlineEnds := congrArg Scene.lineEnds hscene
    dsimp only [Scene.viewed, Scene.map] at hpages hlineEnds ⊢
    rw [hpages, hlineEnds, List.map_map, List.map_map]
    have := congrArg (List.map Comment.mk) hcomments
    rw [List.map_map, List.map_map] at this
    exact congrArg (Scene.mk _ _) this

end Reading

/-! ## Lexing -/

/-- Pieces of which the same is seen: they differ in the way line ends are written, and in blanks
    after which the same is seen of a position as before. -/
inductive Piece.Alike (v : View) : List Piece → List Piece → Prop
  | nil : Alike v [] []
  | same {pieces pieces' : List Piece} (piece : Piece) : Alike v pieces pieces' →
    Alike v (piece :: pieces) (piece :: pieces')
  | lineEnd {front front' : List Char} {pieces pieces' : List Piece} :
    '\n' ∉ front → '\n' ∉ front' → Alike v pieces pieces' →
      Alike v (.lexeme .lineEnd (front ++ ['\n']) :: pieces)
        (.lexeme .lineEnd (front' ++ ['\n']) :: pieces')
  | blanks_left {image : List Char} {pieces pieces' : List Piece} :
    (∀ p : Position, v.position (p.advance image) = v.position p) → Alike v pieces pieces' →
      Alike v (.lexeme .blanks image :: pieces) pieces'
  | blanks_right {image : List Char} {pieces pieces' : List Piece} :
    (∀ p : Position, v.position (p.advance image) = v.position p) → Alike v pieces pieces' →
      Alike v pieces (.lexeme .blanks image :: pieces')

theorem Piece.Alike.refl (v : View) (pieces : List Piece) : Alike v pieces pieces := by
  induction pieces with
  | nil => exact .nil
  | cons piece pieces ih => exact .same piece ih

theorem Piece.Alike.append {front pieces pieces' : List Piece} (h : Alike v pieces pieces') :
    Alike v (front ++ pieces) (front ++ pieces') := by
  induction front with
  | nil => exact h
  | cons piece front ih => exact .same piece ih

/-- After a line end the next line begins, however the line end is written. -/
theorem Position.advance_lineEnd {front : List Char} (hfront : '\n' ∉ front) (p : Position) :
    p.advance (front ++ ['\n']) = p.step '\n' := by
  rw [advance_append]
  change (p.advance front).step '\n' = _
  exact congrArg (fun n => Position.mk (n + 1) 1) (line_advance_of_notMem hfront)

namespace Lexing

theorem viewed_append (v : View) (l l' : Lexing) :
    (l.append l').viewed v = (l.viewed v).append (l'.viewed v) := by
  simp [append, viewed]

/-- Of one piece the same is seen at two places of which the same is seen. -/
theorem viewed_sift_single {p p' : Position} (h : v.position p = v.position p') (line : LineState)
    (offset offset' : Nat) (piece : Piece) :
    (sift line [(piece, .ofText offset p piece.image)]).viewed v =
      (sift line [(piece, .ofText offset' p' piece.image)]).viewed v := by
  have hrange : ∀ image isLineEnd, (Range.ofText offset p image).viewed v isLineEnd =
      (Range.ofText offset' p' image).viewed v isLineEnd := by
    intro image isLineEnd
    simp only [Range.viewed, Range.ofText, Span.length, Nat.add_sub_cancel_left, h,
      v.advance_congr h image]
  have htoken : ∀ kind image, Token.viewed v ⟨kind, String.ofList image, .ofText offset p image⟩ =
      Token.viewed v ⟨kind, String.ofList image, .ofText offset' p' image⟩ :=
    fun kind image => congrArg (Token.mk kind _) (hrange image _)
  cases piece with
  | stray image =>
    cases image with
    | nil => rfl
    | cons first image =>
      have herror : LexError.viewed v ⟨.stray first (first :: image).length,
          .ofText offset p (first :: image)⟩ = LexError.viewed v
            ⟨.stray first (first :: image).length, .ofText offset' p' (first :: image)⟩ :=
        congrArg (LexError.mk _) (hrange (first :: image) false)
      exact congrArg (Lexing.mk [] [] [·]) herror
  | lexeme kind image =>
    cases kind with
    | blanks => rfl
    | comment => exact congrArg (Lexing.mk [] [·] []) (htoken .comment image)
    | lineEnd =>
      rw [sift_lineEnd, sift_lineEnd]
      split
      · rfl
      · exact congrArg (Lexing.mk [·] [] []) (htoken .lineEnd image)
    | _ => exact congrArg (Lexing.mk [·] [] []) (htoken _ image)

/-- Pieces that are alike are sifted alike. -/
theorem viewed_sift {pieces pieces' : List Piece} (halike : Piece.Alike v pieces pieces')
    {p p' : Position} (h : v.position p = v.position p') (line : LineState) (offset offset' : Nat) :
    (sift line (locate offset p pieces)).viewed v =
      (sift line (locate offset' p' pieces')).viewed v := by
  -- by induction on the pieces: the positions of the two runs part, but what is
  -- seen of them stays equal
  induction halike generalizing p p' line offset offset' with
  | nil => rfl
  | same piece _ ih =>
    rw [locate, locate, sift_cons, sift_cons line piece _ (locate _ _ _),
      viewed_append, viewed_append]
    exact congrArg₂ append (viewed_sift_single h line offset offset' piece)
      (ih (v.advance_congr h piece.image) _ _ _)
  | @lineEnd front front' pieces pieces' hfront hfront' _ ih =>
    have hnext : v.position (p.advance (front ++ ['\n'])) =
        v.position (p'.advance (front' ++ ['\n'])) := by
      rw [Position.advance_lineEnd hfront, Position.advance_lineEnd hfront']
      exact v.step_congr h '\n'
    have hone : (sift line [(.lexeme .lineEnd (front ++ ['\n']),
          .ofText offset p (front ++ ['\n']))]).viewed v =
        (sift line [(.lexeme .lineEnd (front' ++ ['\n']),
          .ofText offset' p' (front' ++ ['\n']))]).viewed v := by
      have hrange : (Range.ofText offset p (front ++ ['\n'])).viewed v true =
          (Range.ofText offset' p' (front' ++ ['\n'])).viewed v true := by
        simp only [Range.viewed, Range.ofText, h, hnext, if_true]
      rw [sift_lineEnd, sift_lineEnd]
      split
      · rfl
      · exact congrArg (Lexing.mk [·] [] []) (congrArg (Token.mk .lineEnd "\n") hrange)
    rw [locate, locate, sift_cons, sift_cons line (.lexeme .lineEnd (front' ++ ['\n'])),
      viewed_append, viewed_append]
    exact congrArg₂ append hone (ih hnext _ _ _)
  | blanks_left himage _ ih => exact ih ((himage p).trans h) line _ _
  | blanks_right himage _ ih => exact ih (h.trans (himage p').symm) line _ _

theorem viewed_congr {locale : Locale} {text text' : List Char}
    (h : Piece.Alike v (locale.pieces text) (locale.pieces text')) :
    (ofText locale text).viewed v = (ofText locale text').viewed v :=
  viewed_sift h rfl .fresh 0 0

end Lexing

end Wireframe
