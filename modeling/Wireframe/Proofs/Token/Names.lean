import Wireframe.Proofs.Token.Recognition
import Wireframe.Scene

/-!
# Names next to each other on a line

A text in delimiters goes on to the last character of its line that can close it, or to the first
double quote after it. So a name in double quotes always ends where it should, but a name in
guillemets or in angle brackets swallows what comes after it when a later name can close it, too.
`QuoteStyle.KeepApart` says for which quoting styles, in which order, this does not happen, and it
happens for all others (`lexemeAt?_name_iff`). Names that keep apart are cut into the names
(`cut_names`).
-/

namespace Wireframe

open Text

/-! ## Quoted names -/

/-- How a name can be quoted. -/
inductive QuoteStyle
  | double
  | guillemets
  | angles
  deriving DecidableEq, Repr

namespace QuoteStyle

/-- What stands before a name. -/
def opening : QuoteStyle → Char
  | double => '"'
  | guillemets => '«'
  | angles => '<'

/-- What stands after a name. -/
def closing : QuoteStyle → Char
  | double => '"'
  | guillemets => '»'
  | angles => '>'

/-- What a quoted name is. -/
def kind : QuoteStyle → TokenKind
  | double | guillemets => .quotation
  | angles => .placeholder

/-- What could end a name in quotes of a style. -/
def closes : QuoteStyle → Char → Bool
  | double | guillemets => Shape.isQuotationMark
  | angles => (· = '>')

/-- Whether a name in quotes of a style ends before the names after it, given the styles of these. A
    name in guillemets can also be closed by a name in guillemets or in double quotes, a name in
    angle brackets by one in angle brackets, unless there is a double quote before. -/
def EndsBefore : QuoteStyle → List QuoteStyle → Prop
  | double, _ => True
  | guillemets, later => ∀ s ∈ later, s = angles
  | angles, later => angles ∉ later.takeWhile (· ≠ double)

/-- Whether names in quotes of the given styles, one after the other, end before the next one. -/
def KeepApart : List QuoteStyle → Prop
  | [] => True
  | s :: later => s.EndsBefore later ∧ KeepApart later

instance (s : QuoteStyle) (later : List QuoteStyle) : Decidable (s.EndsBefore later) := by
  cases s <;> unfold EndsBefore <;> infer_instance

instance decidableKeepApart : ∀ styles, Decidable (KeepApart styles)
  | [] => .isTrue trivial
  | s :: later =>
    have := decidableKeepApart later
    inferInstanceAs (Decidable (s.EndsBefore later ∧ KeepApart later))

end QuoteStyle

/-- A name and how it is quoted. -/
structure QuotedName where
  style : QuoteStyle
  text : List Char

namespace QuotedName

/-- A name with its quotes. -/
def image (q : QuotedName) : List Char :=
  q.style.opening :: (q.text ++ [q.style.closing])

/-- The text of a name has no line breaks, backslashes and delimiters. -/
def IsPlain (q : QuotedName) : Prop :=
  ∀ c ∈ q.text, Shape.isBreak c = false ∧ c ∉ ['\\', '"', '«', '»', '<', '>']

/-- Names with a comma and a space between each two. -/
def joined (names : List QuotedName) : List Char :=
  List.intercalate [',', ' '] (names.map image)

/-- Names with a comma and a space before each. -/
def following (names : List QuotedName) : List Char :=
  names.flatMap fun q => ',' :: ' ' :: q.image

theorem joined_cons (q : QuotedName) (names : List QuotedName) :
    joined (q :: names) = q.image ++ following names := by
  induction names generalizing q with
  | nil => simp [joined, following]
  | cons q' names ih =>
    have hcons : joined (q :: q' :: names) = q.image ++ ([',', ' '] ++ joined (q' :: names)) := rfl
    rw [hcons, ih]
    rfl

end QuotedName

/-! ## Where a name ends -/

section Closing

variable {q : QuotedName} {rest : List Char}

/-- The text of a name can close no name. -/
theorem QuotedName.IsPlain.neutral (h : q.IsPlain) (s : QuoteStyle) : ∀ c ∈ q.text,
    c ≠ '\\' ∧ Shape.isBreak c = false ∧ c ≠ '"' ∧ s.closes c = false := by
  intro c hc
  obtain ⟨hbreak, hmem⟩ := h c hc
  simp only [List.mem_cons, List.not_mem_nil, or_false, not_or] at hmem
  obtain ⟨hslash, hquote, hopen, hclose, -, hangle⟩ := hmem
  refine ⟨hslash, hbreak, hquote, ?_⟩
  cases s <;> simp [QuoteStyle.closes, Shape.isQuotationMark, hquote, hopen, hclose, hangle]

/-- A character that closes a name of a style. -/
theorem closingLength?_cons_ne_none {s : QuoteStyle} {c : Char} (hslash : c ≠ '\\')
    (hbreak : Shape.isBreak c = false) (hcloses : s.closes c = true) :
    Shape.closingLength? s.closes (c :: rest) ≠ none := by
  rw [closingLength?_plain hslash, hbreak, hcloses]
  grind

/-- A name in guillemets is passed over in the search for an angle bracket,
    and the other way round. -/
theorem QuotedName.IsPlain.closingLength?_eq_none_iff (h : q.IsPlain) {s : QuoteStyle}
    (hs : s ≠ .double) (hstyle : q.style ≠ .double) (hne : s ≠ q.style) :
    Shape.closingLength? s.closes (q.image ++ rest) = none ↔
      Shape.closingLength? s.closes rest = none := by
  have hedges : ∀ c ∈ [q.style.opening, q.style.closing],
      c ≠ '\\' ∧ Shape.isBreak c = false ∧ c ≠ '"' ∧ s.closes c = false := by
    cases s <;> cases hq : q.style <;> first | contradiction | decide | exact absurd hq.symm hne
  obtain ⟨hopening, hclosing⟩ := List.forall_mem_cons.1 hedges
  refine closingLength?_append_neutral fun c hc => ?_
  rcases List.mem_cons.1 hc with rfl | hc
  · exact hopening
  rcases List.mem_append.1 hc with hc | hc
  · exact h.neutral s c hc
  · exact hclosing c hc

/-- A name in angle brackets is closed by another one. -/
theorem QuotedName.IsPlain.closingLength?_angles_ne_none (h : q.IsPlain) (hq : q.style = .angles) :
    Shape.closingLength? QuoteStyle.angles.closes (q.image ++ rest) ≠ none := by
  have hopening : ∀ c ∈ ['<'], c ≠ '\\' ∧ Shape.isBreak c = false ∧ c ≠ '"' ∧
      QuoteStyle.angles.closes c = false := by decide
  rw [QuotedName.image, hq, QuoteStyle.opening, QuoteStyle.closing, ← List.cons_append,
    List.append_assoc, Ne, closingLength?_append_neutral
      (List.forall_mem_cons.2 ⟨hopening '<' List.mem_cons_self, h.neutral .angles⟩)]
  exact closingLength?_cons_ne_none (by decide) (by decide) rfl

/-- The names that follow a name can close it exactly if it does not end before them. -/
theorem closingLength?_following_eq_none_iff {s : QuoteStyle} (hs : s ≠ .double)
    {names : List QuotedName} (hplain : ∀ q ∈ names, q.IsPlain)
    (hrest : Shape.closingLength? s.closes rest = none) :
    Shape.closingLength? s.closes (QuotedName.following names ++ rest) = none ↔
      s.EndsBefore (names.map QuotedName.style) := by
  induction names with
  | nil => exact iff_of_true hrest (by cases s <;> simp [QuoteStyle.EndsBefore])
  | cons q names ih =>
    obtain ⟨hq, hnames⟩ := List.forall_mem_cons.1 hplain
    have hseparator : ∀ c ∈ [',', ' '],
        c ≠ '\\' ∧ Shape.isBreak c = false ∧ c ≠ '"' ∧ s.closes c = false := by
      cases s <;> decide
    have hfollowing : QuotedName.following (q :: names) ++ rest =
        [',', ' '] ++ (q.image ++ (QuotedName.following names ++ rest)) := by
      simp [QuotedName.following]
    rw [hfollowing, closingLength?_append_neutral hseparator, List.map_cons]
    -- the next name closes, or ends the search, or is passed over
    cases s with
    | double => exact absurd rfl hs
    | guillemets =>
      cases hstyle : q.style with
      | double | guillemets =>
        rw [QuotedName.image, hstyle]
        refine iff_of_false (closingLength?_cons_ne_none (by decide) (by decide) rfl) ?_
        simp [QuoteStyle.EndsBefore]
      | angles =>
        rw [hq.closingLength?_eq_none_iff hs (by simp [hstyle]) (by simp [hstyle]), ih hnames]
        simp [QuoteStyle.EndsBefore]
    | angles =>
      cases hstyle : q.style with
      | double =>
        refine iff_of_true ?_ (by simp [QuoteStyle.EndsBefore])
        rw [QuotedName.image, hstyle, QuoteStyle.opening, List.cons_append,
          closingLength?_plain (by decide)]
        rfl
      | guillemets =>
        rw [hq.closingLength?_eq_none_iff hs (by simp [hstyle]) (by simp [hstyle]), ih hnames]
        simp [QuoteStyle.EndsBefore]
      | angles =>
        exact iff_of_false (hq.closingLength?_angles_ne_none hstyle)
          (by simp [QuoteStyle.EndsBefore])

/-- A text that is opened is a lexeme up to the last character that closes it. -/
theorem lexemeAt?_opening {locale : Locale} {s : QuoteStyle} {text : List Char} {n : Nat}
    (h : Shape.closingLength? s.closes text = some n) :
    lexemeAt? locale.regularTerminals (s.opening :: text) = some (s.kind, 1 + n) := by
  have hmatch : longestMatch? locale.regularTerminals (s.opening :: text) =
      (Shape.closingLength? s.closes text).map fun n => (s.kind, 1 + n) := by
    cases s with
    | double | guillemets =>
      rw [QuoteStyle.opening, longestMatch?_quotationMark (by decide), Shape.quotationLength?,
        if_pos (by decide), Option.map_map]
      rfl
    | angles =>
      rw [QuoteStyle.opening, longestMatch?_angle, Shape.placeholderLength?, Option.map_map]
      rfl
  rw [lexemeAt?, hmatch, h]
  rfl

/-- A quoted name begins a lexeme, which goes on after the name exactly if something there closes
    it. -/
theorem lexemeAt?_name (locale : Locale) (hq : q.IsPlain) (rest : List Char) :
    ∃ extra, lexemeAt? locale.regularTerminals (q.image ++ rest) =
        some (q.style.kind, q.image.length + extra) ∧
      (extra = 0 ↔ q.style = .double ∨ Shape.closingLength? q.style.closes rest = none) := by
  have hname {n : Nat} (h : Shape.closingLength? q.style.closes (q.style.closing :: rest) =
      some n) : lexemeAt? locale.regularTerminals (q.image ++ rest) =
        some (q.style.kind, 1 + (q.text.length + n)) := by
    rw [QuotedName.image, List.cons_append, List.append_assoc]
    refine lexemeAt?_opening ?_
    rw [closingLength?_append_plain (hq.neutral q.style), List.singleton_append, h]
    rfl
  have hlength : q.image.length = q.text.length + 2 := by simp [QuotedName.image]
  by_cases hdouble : q.style = .double
  · refine ⟨0, ?_, iff_of_true rfl (.inl hdouble)⟩
    rw [hname (n := 1) (by rw [hdouble]; rfl), hlength]
    congr 2
    omega
  · -- in the other styles a later closing character counts
    have hclosing : Shape.closingLength? q.style.closes (q.style.closing :: rest) =
        some (1 + (Shape.closingLength? q.style.closes rest).getD 0) := by
      rw [closingLength?_plain (by cases q.style <;> decide)]
      cases hstyle : q.style with
      | double => exact absurd hstyle hdouble
      | guillemets | angles => cases Shape.closingLength? _ rest <;> rfl
    refine ⟨(Shape.closingLength? q.style.closes rest).getD 0, ?_, ?_⟩
    · rw [hname hclosing, hlength]
      congr 2
      omega
    · cases hrest : Shape.closingLength? q.style.closes rest with
      | none => simp
      | some n => simp [hdouble, Nat.ne_of_gt (closingLength?_pos hrest)]

end Closing

/-! ## Lexemes and tokens -/

/-- What a token is and how it is written, wherever it stands. -/
def Token.lexeme (t : Token) : TokenKind × List Char :=
  (t.kind, t.chars)

/-- A lexeme as a piece of a text. -/
def lexemePiece (l : TokenKind × List Char) : Piece :=
  .lexeme l.1 l.2

namespace Lexing

/-- Where no comment began the line, a lexeme becomes a token, unless it is a comment or blanks. -/
theorem sift_lexeme {l : TokenKind × List Char} (hkind : l.1 ≠ .comment) {line : LineState}
    (hline : line.isComment = false) (range : Range) : ∃ tokens,
      sift line [(lexemePiece l, range)] = ⟨tokens, [], []⟩ ∧
      tokens.map Token.lexeme = [l].filter (·.1 ≠ .blanks) ∧
      (line.next (lexemePiece l)).isComment = false := by
  obtain ⟨kind, image⟩ := l
  cases kind with
  | comment => exact absurd rfl hkind
  | blanks => exact ⟨[], rfl, rfl, hline⟩
  | lineEnd =>
    refine ⟨[⟨.lineEnd, String.ofList image, range⟩], ?_, by simp [Token.lexeme, Token.chars], rfl⟩
    rw [lexemePiece, sift_lineEnd, if_neg (by simp [hline])]
    rfl
  | _ => exact ⟨[⟨_, String.ofList image, range⟩], rfl, by simp [Token.lexeme, Token.chars], hline⟩

/-- Where no comment began the line, lexemes without comments become tokens, but for the blanks. -/
theorem sift_lexemes {lexemes : List (TokenKind × List Char)}
    (hkinds : ∀ l ∈ lexemes, l.1 ≠ .comment) {line : LineState} (hline : line.isComment = false)
    (offset : Nat) (position : Position) : ∃ tokens,
      sift line (locate offset position (lexemes.map lexemePiece)) = ⟨tokens, [], []⟩ ∧
      tokens.map Token.lexeme = lexemes.filter (·.1 ≠ .blanks) := by
  induction lexemes generalizing line offset position with
  | nil => exact ⟨[], rfl, rfl⟩
  | cons l lexemes ih =>
    obtain ⟨hl, hlexemes⟩ := List.forall_mem_cons.1 hkinds
    rw [List.map_cons, locate, sift_cons]
    obtain ⟨first, hfirst, hfirstTokens, hnext⟩ :=
      sift_lexeme hl hline (.ofText offset position (lexemePiece l).image)
    obtain ⟨tokens, hsift, htokens⟩ := ih hlexemes hnext _ _
    refine ⟨first ++ tokens, by rw [hfirst, hsift]; rfl, ?_⟩
    rw [List.map_append, hfirstTokens, htokens, ← List.filter_append]
    rfl

/-- The tokens that pieces become, somewhere on a line that no comment began, are written as the
    given lexemes. -/
def Become (pieces : List Piece) (lexemes : List (TokenKind × List Char)) : Prop :=
  ∃ (line : LineState) (offset : Nat) (position : Position), line.isComment = false ∧
    (sift line (locate offset position pieces)).tokens.map Token.lexeme = lexemes

theorem Become.uncons {l : TokenKind × List Char} {pieces : List Piece}
    {lexemes : List (TokenKind × List Char)} (h : Become (lexemePiece l :: pieces) lexemes)
    (hkind : l.1 ≠ .comment) :
    ∃ more, lexemes = [l].filter (·.1 ≠ .blanks) ++ more ∧ Become pieces more := by
  obtain ⟨line, offset, position, hline, rfl⟩ := h
  obtain ⟨tokens, hsift, htokens, hnext⟩ :=
    sift_lexeme hkind hline (.ofText offset position (lexemePiece l).image)
  have hsplit : sift line (locate offset position (lexemePiece l :: pieces)) =
      append ⟨tokens, [], []⟩ (sift (line.next (lexemePiece l))
        (locate (offset + byteLength (lexemePiece l).image) (position.advance (lexemePiece l).image)
          pieces)) := by
    rw [locate, sift_cons, hsift]
    rfl
  rw [hsplit, append, List.map_append, htokens]
  exact ⟨_, rfl, _, _, _, hnext, rfl⟩

end Lexing

/-! ## Names in a row -/

section Names

variable {locale : Locale} {q : QuotedName} {names : List QuotedName} {rest : List Char}

/-- A quoted name as a lexeme. -/
def QuotedName.lexeme (q : QuotedName) : TokenKind × List Char :=
  (q.style.kind, q.image)

/-- A name, and others with a comma and a space before each, as lexemes. -/
def QuotedName.lexemes (q : QuotedName) (names : List QuotedName) : List (TokenKind × List Char) :=
  q.lexeme :: names.flatMap fun q => [(.comma, [',']), (.blanks, [' ']), q.lexeme]

/-- A name, and others with a comma before each, as the grammar reads them. -/
def QuotedName.readLexemes (q : QuotedName) (names : List QuotedName) :
    List (TokenKind × List Char) :=
  q.lexeme :: names.flatMap fun q => [(.comma, [',']), q.lexeme]

theorem QuoteStyle.kind_ne (s : QuoteStyle) : s.kind ≠ .comment ∧ s.kind ≠ .blanks := by
  cases s <;> decide

theorem QuotedName.kind_of_mem_lexemes {l : TokenKind × List Char} (h : l ∈ q.lexemes names) :
    l.1 ≠ .comment := by
  rcases List.mem_cons.1 h with rfl | h
  · exact q.style.kind_ne.1
  · obtain ⟨q', -, h⟩ := List.mem_flatMap.1 h
    simp only [List.mem_cons, List.not_mem_nil, or_false] at h
    rcases h with rfl | rfl | rfl
    · decide
    · decide
    · exact q'.style.kind_ne.1

theorem QuotedName.filter_lexemes (q : QuotedName) (names : List QuotedName) :
    (q.lexemes names).filter (·.1 ≠ .blanks) = q.readLexemes names := by
  have hname (q : QuotedName) : q.lexeme.1 ≠ .blanks := q.style.kind_ne.2
  simp [lexemes, readLexemes, List.filter_flatMap, hname]

/-- Spaces and tabs as lexemes. -/
def gapLexemes : List Char → List (TokenKind × List Char)
  | [] => []
  | blanks => [(.blanks, blanks)]

theorem filter_gapLexemes (blanks : List Char) :
    (gapLexemes blanks).filter (·.1 ≠ .blanks) = [] := by
  cases blanks <;> rfl

theorem flatMap_image_gapLexemes (blanks : List Char) :
    ((gapLexemes blanks).map lexemePiece).flatMap Piece.image = blanks := by
  cases blanks with
  | nil => rfl
  | cons b blanks => exact List.append_nil _

/-- Spaces and tabs are a lexeme before a character that is neither a blank nor a question mark. -/
theorem cut_gaps {blanks : List Char} (hblanks : ∀ b ∈ blanks, isGap b) {c : Char}
    (hc : isBlank c = false) (hmark : c ≠ '?') (rest : List Char) :
    cut locale.regularTerminals (blanks ++ c :: rest) =
      (gapLexemes blanks).map lexemePiece ++ cut locale.regularTerminals (c :: rest) := by
  cases blanks with
  | nil => rfl
  | cons b blanks =>
    have hlexeme : lexemeAt? locale.regularTerminals (b :: blanks ++ c :: rest) =
        some (.blanks, (b :: blanks).length) := by
      rw [lexemeAt?, longestMatch?_gaps hblanks (List.cons_ne_nil _ _) hc hmark]
    exact cut_append hlexeme

theorem cut_gaps_word {blanks word : List Char} {kind : TokenKind} (hblanks : ∀ b ∈ blanks, isGap b)
    (h : locale.dictionary.SpellsWord kind word) (rest : List Char) :
    cut locale.regularTerminals (blanks ++ (word ++ rest)) =
      (gapLexemes blanks).map lexemePiece ++ cut locale.regularTerminals (word ++ rest) := by
  obtain ⟨c, more, rfl, hc⟩ := Locale.exists_cons_of_spellsWord h
  refine cut_gaps hblanks (Bool.eq_false_iff.2 fun hblank => ?_) ?_ _
  · rw [isLetter_of_isBlank hblank] at hc
    cases hc
  · rintro rfl
    exact absurd hc (by decide)

theorem cut_lineFeed : cut locale.regularTerminals ['\n'] = [.lexeme .lineEnd ['\n']] := by
  have hlexeme : lexemeAt? locale.regularTerminals (['\n'] ++ []) =
      some (.lineEnd, ['\n'].length) := by
    rw [lexemeAt?, List.append_nil, longestMatch?_lineFeed]
    rfl
  have hcut := cut_append hlexeme
  rwa [List.append_nil, cut_nil] at hcut

theorem QuoteStyle.opening_spec (s : QuoteStyle) : isBlank s.opening = false ∧ s.opening ≠ '?' ∧
    IsUnread s.opening ∧ isGap s.opening = false := by
  cases s <;> exact ⟨by decide, by decide, ⟨by decide, by decide⟩, by decide⟩

theorem cut_separator (q : QuotedName) (rest : List Char) :
    cut locale.regularTerminals (',' :: ' ' :: (q.image ++ rest)) =
      .lexeme .comma [','] :: .lexeme .blanks [' '] ::
        cut locale.regularTerminals (q.image ++ rest) := by
  have hcomma : lexemeAt? locale.regularTerminals ([','] ++ ' ' :: (q.image ++ rest)) =
      some (.comma, [','].length) := by
    rw [List.singleton_append, lexemeAt?, longestMatch?_comma]
    rfl
  obtain ⟨hblank, hmark, -⟩ := q.style.opening_spec
  have hcut := cut_append hcomma
  rw [List.singleton_append] at hcut
  rw [hcut]
  exact congrArg _ (cut_gaps (by decide : ∀ b ∈ [' '], isGap b) hblank hmark _)

/-- A name ends before the names after it exactly if it is a lexeme by itself. -/
theorem lexemeAt?_name_iff (locale : Locale) (hplain : ∀ q' ∈ q :: names, q'.IsPlain)
    (hrest : ∀ s : QuoteStyle, Shape.closingLength? s.closes rest = none) :
    ∃ extra, lexemeAt? locale.regularTerminals (q.image ++ (QuotedName.following names ++ rest)) =
        some (q.style.kind, q.image.length + extra) ∧
      (extra = 0 ↔ q.style.EndsBefore (names.map QuotedName.style)) := by
  obtain ⟨hq, hnames⟩ := List.forall_mem_cons.1 hplain
  obtain ⟨extra, hlexeme, hextra⟩ := lexemeAt?_name locale hq (QuotedName.following names ++ rest)
  refine ⟨extra, hlexeme, hextra.trans ?_⟩
  by_cases hdouble : q.style = .double
  · rw [hdouble]
    exact iff_of_true (.inl rfl) trivial
  · rw [closingLength?_following_eq_none_iff hdouble hnames (hrest _)]
    exact or_iff_right hdouble

/-- Names that keep apart are cut into the names. -/
theorem cut_names (hplain : ∀ q' ∈ q :: names, q'.IsPlain)
    (hrest : ∀ s : QuoteStyle, Shape.closingLength? s.closes rest = none)
    (hapart : QuoteStyle.KeepApart ((q :: names).map QuotedName.style)) :
    cut locale.regularTerminals (q.image ++ (QuotedName.following names ++ rest)) =
      (q.lexemes names).map lexemePiece ++ cut locale.regularTerminals rest := by
  induction names generalizing q with
  | nil =>
    obtain ⟨extra, hlexeme, hextra⟩ := lexemeAt?_name_iff locale hplain hrest
    rw [hextra.2 hapart.1] at hlexeme
    exact cut_append hlexeme
  | cons q' names ih =>
    obtain ⟨extra, hlexeme, hextra⟩ := lexemeAt?_name_iff locale hplain hrest
    rw [hextra.2 hapart.1] at hlexeme
    have hfollowing : QuotedName.following (q' :: names) ++ rest =
        ',' :: ' ' :: (q'.image ++ (QuotedName.following names ++ rest)) := by
      simp [QuotedName.following]
    rw [cut_append hlexeme, hfollowing, cut_separator,
      ih (fun q hq => hplain q (List.mem_cons_of_mem _ hq)) hapart.2]
    rfl

end Names

/-! ## The texts of names -/

theorem unescape_cons {c : Char} (hc : c ≠ '\\') (text : List Char) :
    unescape (c :: text) = c :: unescape text := by
  rw [unescape.eq_def]
  split
  · next h => exact absurd (List.cons.inj h).1 hc
  · next h =>
    obtain ⟨rfl, rfl⟩ := List.cons.inj h
    rfl
  · next h => cases h

/-- Where there is no backslash, there is nothing to unescape. -/
theorem unescape_append {text : List Char} (h : '\\' ∉ text) (more : List Char) :
    unescape (text ++ more) = text ++ unescape more := by
  induction text with
  | nil => rfl
  | cons c text ih =>
    obtain ⟨hc, htext⟩ := not_or.1 (mt List.mem_cons.2 h)
    rw [List.cons_append, unescape_cons (Ne.symm hc), ih htext, List.cons_append]

section Literals

variable {q : QuotedName} {names : List QuotedName}

theorem QuotedName.IsPlain.notMem (h : q.IsPlain) : '\\' ∉ q.text := fun hmem =>
  (h.neutral .double _ hmem).1 rfl

/-- A token for a quoted name, as a literal. -/
def QuoteStyle.literal : QuoteStyle → Token → Literal
  | double, t | guillemets, t => .quotation t
  | angles, t => .placeholder t

theorem stripDelimiters_image (q : QuotedName) : stripDelimiters q.image = q.text :=
  List.dropLast_concat

theorem text_literal (hq : q.IsPlain) {t : Token} (ht : t.chars = q.image) :
    (q.style.literal t).text = String.ofList q.text := by
  have hunescape : unescape q.text = q.text := by
    have := unescape_append hq.notMem []
    rwa [List.append_nil, show unescape [] = [] from rfl, List.append_nil] at this
  cases hstyle : q.style with
  | double | guillemets =>
    rw [QuoteStyle.literal, Literal.text, quotationText, ht, stripDelimiters_image, hunescape]
  | angles => rw [QuoteStyle.literal, Literal.text, ht, stripDelimiters_image]

/-- A literal that goes on after a name does not have its text. -/
theorem text_ne_of_longer (hq : q.IsPlain) {l : Literal} {extra : List Char} (hne : extra ≠ [])
    (hl : l.token.chars = q.image ++ extra) : l.text ≠ String.ofList q.text := by
  have hstrip : stripDelimiters l.token.chars =
      q.text ++ q.style.closing :: extra.dropLast := by
    rw [hl, stripDelimiters, QuotedName.image, List.cons_append, List.tail_cons, List.append_assoc,
      List.dropLast_append_of_ne_nil (by simp), List.singleton_append,
      List.dropLast_cons_of_ne_nil hne]
  have hclosing : q.style.closing ≠ '\\' := by cases q.style <;> decide
  -- the closing mark of the name is in such a text, so it is longer
  have hlonger (more : List Char) : q.text ++ q.style.closing :: more ≠ q.text := fun h => by
    have := congrArg List.length h
    simp at this
  intro htext
  cases l with
  | quotation t =>
    have := String.ofList_injective htext
    rw [quotationText, show stripDelimiters t.chars = _ from hstrip, unescape_append hq.notMem,
      unescape_cons hclosing] at this
    exact hlonger _ this
  | placeholder t =>
    have := String.ofList_injective htext
    rw [show stripDelimiters t.chars = _ from hstrip] at this
    exact hlonger _ this

end Literals

end Wireframe
