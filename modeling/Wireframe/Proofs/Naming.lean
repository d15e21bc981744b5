import Wireframe.Proofs.Reading
import Wireframe.Proofs.Scene.Extended
import Wireframe.Proofs.Token.FreeText
import Wireframe.Proofs.Token.Names

/-!
# Alignments of named blocks

An alignment can name the blocks that it is for, each name quoted in its own way (`NamingLine`). At
the end of a text that can be read, such a line adds an alignment with these names exactly if the
names keep apart (`Reading.ofText_naming_iff`). Only then has what the lexer makes of the line the
names one by one, and what the parser then makes of the scene is the scene with the alignment
(`Parsing.ofTokens_align_iff`).
-/

namespace Wireframe

open Text

/-! ## The line -/

/-- A line with an alignment of named blocks. -/
structure NamingLine (locale : Locale) where
  keyword : List Char
  names : List QuotedName
  aligned : List Char
  axis : Axis
  axisWord : List Char
  keyword_spells : locale.dictionary.SpellsWord (.keyword .blocks) keyword
  names_ne_nil : names ≠ []
  names_plain : ∀ q ∈ names, q.IsPlain
  aligned_spells : locale.dictionary.SpellsWord (.keyword .aligned) aligned
  axis_spells : locale.dictionary.SpellsWord (.keyword axis.keyword) axisWord

namespace NamingLine

variable {locale : Locale}

/-- What stands after the names. -/
def ending (l : NamingLine locale) : List Char :=
  ' ' :: (l.aligned ++ ' ' :: (l.axisWord ++ ['\n']))

/-- The line as it is written. -/
def chars (l : NamingLine locale) : List Char :=
  l.keyword ++ ' ' :: (QuotedName.joined l.names ++ l.ending)

/-- The styles of the names. -/
def styles (l : NamingLine locale) : List QuoteStyle :=
  l.names.map QuotedName.style

/-- The texts of the names. -/
def texts (l : NamingLine locale) : List String :=
  l.names.map fun q => String.ofList q.text

/-- The line in the words that the English forms are written in. -/
def english (names : List QuotedName) (hne : names ≠ []) (hplain : ∀ q ∈ names, q.IsPlain) :
    NamingLine .english where
  keyword := "blocks".toList
  names := names
  aligned := "aligned in".toList
  axis := .row
  axisWord := "rows".toList
  keyword_spells := Dictionary.spellsWord_of_mem (by decide)
  names_ne_nil := hne
  names_plain := hplain
  aligned_spells := Dictionary.spellsWord_of_mem (by decide)
  axis_spells := Dictionary.spellsWord_of_mem (by decide)

end NamingLine

section Line

variable {locale : Locale} {kind : TokenKind} {word : List Char}

/-- A word can close no name. -/
theorem Locale.neutral_of_spellsWord (h : locale.dictionary.SpellsWord kind word) (s : QuoteStyle) :
    ∀ c ∈ word, c ≠ '\\' ∧ Shape.isBreak c = false ∧ c ≠ '"' ∧ s.closes c = false := by
  intro c hc
  have hother : ∀ d, IsUnread d → isGap d = false → c ≠ d := by
    rintro _ hd hgap rfl
    rcases not_unread_of_spellsWord h c hc with h | h
    · rw [hgap] at h
      cases h
    · exact h hd
  have hslash := hother '\\' ⟨by decide, by decide⟩ (by decide)
  have hreturn := hother '\r' ⟨by decide, by decide⟩ (by decide)
  have hfeed := hother '\n' ⟨by decide, by decide⟩ (by decide)
  have hquote := hother '"' ⟨by decide, by decide⟩ (by decide)
  have hopen := hother '«' ⟨by decide, by decide⟩ (by decide)
  have hclose := hother '»' ⟨by decide, by decide⟩ (by decide)
  have hangle := hother '>' ⟨by decide, by decide⟩ (by decide)
  refine ⟨hslash, by simp [Shape.isBreak, hreturn, hfeed], hquote, ?_⟩
  cases s <;> simp [QuoteStyle.closes, Shape.isQuotationMark, hquote, hopen, hclose, hangle]

namespace NamingLine

variable (l : NamingLine locale)

/-- After the names there is nothing that could close one. -/
theorem closingLength?_ending (s : QuoteStyle) :
    Shape.closingLength? s.closes l.ending = none := by
  have hspace : ' ' ≠ '\\' ∧ Shape.isBreak ' ' = false ∧ ' ' ≠ '"' ∧ s.closes ' ' = false := by
    cases s <;> decide
  have hending : l.ending = [' '] ++ (l.aligned ++ ([' '] ++ (l.axisWord ++ ['\n']))) := rfl
  rw [hending, closingLength?_append_neutral (by simpa using hspace),
    closingLength?_append_neutral (Locale.neutral_of_spellsWord l.aligned_spells s),
    closingLength?_append_neutral (by simpa using hspace),
    closingLength?_append_neutral (Locale.neutral_of_spellsWord l.axis_spells s),
    closingLength?_plain (by decide)]
  rfl

/-- What stands after the names, as lexemes. -/
def endingLexemes : List (TokenKind × List Char) :=
  [(.blanks, [' ']), (.keyword .aligned, l.aligned), (.blanks, [' ']),
    (.keyword l.axis.keyword, l.axisWord), (.lineEnd, ['\n'])]

theorem cut_ending : cut locale.regularTerminals l.ending =
    l.endingLexemes.map lexemePiece := by
  have haligned : lexemeAt? locale.regularTerminals
      (l.aligned ++ ' ' :: (l.axisWord ++ ['\n'])) = some (.keyword .aligned, l.aligned.length) :=
    Locale.lexemeAt?_word_follows l.aligned_spells l.axis_spells (by cases l.axis <;> rfl) _
  have haxis : lexemeAt? locale.regularTerminals (l.axisWord ++ ([] ++ ['\n'])) =
      some (.keyword l.axis.keyword, l.axisWord.length) :=
    Locale.lexemeAt?_word l.axis_spells (List.forall_mem_nil _) (by
      rintro _ ⟨⟩
      exact ⟨isUnread_of_isBlank (by decide), by decide⟩)
  have hspace {kind : TokenKind} {word : List Char}
      (h : locale.dictionary.SpellsWord kind word) (rest : List Char) :
      cut locale.regularTerminals (' ' :: (word ++ rest)) =
        .lexeme .blanks [' '] :: cut locale.regularTerminals (word ++ rest) :=
    cut_gaps_word (by decide : ∀ b ∈ [' '], isGap b) h rest
  rw [List.nil_append] at haxis
  rw [ending, hspace l.aligned_spells, cut_append haligned, hspace l.axis_spells, cut_append haxis,
    cut_lineFeed]
  rfl

/-- Up to its names the line is cut into the keyword and a space. -/
theorem cut_chars {q : QuotedName} {names : List QuotedName} (hnames : l.names = q :: names) :
    cut locale.regularTerminals l.chars = .lexeme (.keyword .blocks) l.keyword ::
      .lexeme .blanks [' '] ::
        cut locale.regularTerminals (q.image ++ (QuotedName.following names ++ l.ending)) := by
  obtain ⟨hblank, hmark, hunread⟩ := q.style.opening_spec
  have hkeyword : lexemeAt? locale.regularTerminals (l.keyword ++ ([' '] ++
      (q.image ++ (QuotedName.following names ++ l.ending)))) =
        some (.keyword .blocks, l.keyword.length) :=
    Locale.lexemeAt?_word l.keyword_spells (by decide) (by
      rintro _ ⟨⟩
      exact hunread)
  rw [List.singleton_append] at hkeyword
  rw [chars, hnames, QuotedName.joined_cons, List.append_assoc, cut_append hkeyword]
  exact congrArg _ (cut_gaps (by decide : ∀ b ∈ [' '], isGap b) hblank hmark _)

/-- A line whose names keep apart is lexed into the keyword, the names with commas in between, and
    what stands after them. -/
theorem exists_tokens {q : QuotedName} {names : List QuotedName} (hnames : l.names = q :: names)
    (hapart : QuoteStyle.KeepApart l.styles) : ∃ tokens,
      Lexing.ofText locale l.chars = ⟨tokens, [], []⟩ ∧
      tokens.map Token.lexeme = (.keyword .blocks, l.keyword) :: (q.readLexemes names ++
        [(.keyword .aligned, l.aligned), (.keyword l.axis.keyword, l.axisWord),
          (.lineEnd, ['\n'])]) := by
  -- these are the lexemes of the line; the blanks among them are no tokens
  let lexemes := (.keyword .blocks, l.keyword) :: (.blanks, [' ']) ::
    (q.lexemes names ++ l.endingLexemes)
  have hcut : cut locale.regularTerminals l.chars = lexemes.map lexemePiece := by
    rw [l.cut_chars hnames, cut_names (hnames ▸ l.names_plain) l.closingLength?_ending
      (by rwa [styles, hnames] at hapart), l.cut_ending]
    simp [lexemes, lexemePiece]
  have hkinds : ∀ lexeme ∈ lexemes, lexeme.1 ≠ .comment := by
    have hending : ∀ lexeme ∈ l.endingLexemes, lexeme.1 ≠ .comment := by simp [endingLexemes]
    refine List.forall_mem_cons.2 ⟨by simp, List.forall_mem_cons.2 ⟨by simp, ?_⟩⟩
    exact List.forall_mem_append.2 ⟨fun _ h => QuotedName.kind_of_mem_lexemes h, hending⟩
  have hfresh : LineState.fresh.isComment = false := rfl
  obtain ⟨tokens, hsift, htokens⟩ := Lexing.sift_lexemes hkinds hfresh 0 .start
  refine ⟨tokens, ?_, ?_⟩
  · rw [Lexing.ofText, Locale.pieces, hcut, Lexing.ofPieces, hsift]
  · rw [htokens, List.filter_cons_of_pos (by simp), List.filter_cons_of_neg (by simp),
      List.filter_append, QuotedName.filter_lexemes]
    simp [endingLexemes]

end NamingLine

end Line

/-! ## The names in the tokens -/

section Tokens

variable {locale : Locale} {q : QuotedName} {names : List QuotedName} {rest : List Char}

/-- What is written like names is the names, with commas in between. -/
theorem exists_literals {tokens : List Token} (hplain : ∀ q' ∈ q :: names, q'.IsPlain)
    (htokens : tokens.map Token.lexeme = q.readLexemes names) :
    ∃ (literals : List Literal) (commas : List Token),
      tokens = separated (literals.map Literal.token) commas ∧
      literals.map Literal.text = (q :: names).map (fun q => String.ofList q.text) ∧
      (∀ l ∈ literals, l.IsWellFormed) ∧ (∀ t ∈ commas, t.kind = .comma) ∧
      commas.length = names.length := by
  have hliteral {q : QuotedName} {t : Token} (ht : t.lexeme = q.lexeme) :
      (q.style.literal t).token = t ∧ (q.style.literal t).IsWellFormed := by
    obtain ⟨hkind, -⟩ := Prod.mk.inj ht
    cases hstyle : q.style <;> exact ⟨rfl, hkind.trans (by rw [hstyle]; rfl)⟩
  -- each later name goes with the comma before it
  induction names generalizing q tokens with
  | nil =>
    obtain ⟨t, _, rfl, ht, hmore⟩ := List.map_eq_cons_iff.1 htokens
    obtain rfl := List.map_eq_nil_iff.1 hmore
    have htext := text_literal (hplain q List.mem_cons_self) (Prod.mk.inj ht).2
    refine ⟨[q.style.literal t], [], ?_, congrArg (fun text => [text]) htext, ?_, nofun, rfl⟩
    · rw [List.map_cons, (hliteral ht).1]
      rfl
    · simpa using (hliteral ht).2
  | cons q' names ih =>
    obtain ⟨t, _, rfl, ht, hmore⟩ := List.map_eq_cons_iff.1 htokens
    obtain ⟨comma, more, rfl, hcomma, hmore⟩ := List.map_eq_cons_iff.1 hmore
    obtain ⟨literals, commas, rfl, htexts, hwell, hcommas, hlength⟩ :=
      ih (fun q hq => hplain q (List.mem_cons_of_mem _ hq)) hmore
    have htext := text_literal (hplain q List.mem_cons_self) (Prod.mk.inj ht).2
    refine ⟨q.style.literal t :: literals, comma :: commas, ?_, ?_,
      List.forall_mem_cons.2 ⟨(hliteral ht).2, hwell⟩,
      List.forall_mem_cons.2 ⟨(Prod.mk.inj hcomma).1, hcommas⟩, congrArg Nat.succ hlength⟩
    · rw [List.map_cons, (hliteral ht).1]
      rfl
    · rw [List.map_cons, htext, htexts]
      rfl

/-- A name of which the text is that of the first token ends before the names after it. -/
theorem endsBefore_of_become {l : Literal} {after : List (TokenKind × List Char)}
    (hplain : ∀ q' ∈ q :: names, q'.IsPlain)
    (hrest : ∀ s : QuoteStyle, Shape.closingLength? s.closes rest = none)
    (htext : l.text = String.ofList q.text)
    (h : Lexing.Become (cut locale.regularTerminals
      (q.image ++ (QuotedName.following names ++ rest))) (l.token.lexeme :: after)) :
    q.style.EndsBefore (names.map QuotedName.style) ∧
      Lexing.Become (cut locale.regularTerminals (QuotedName.following names ++ rest)) after := by
  obtain ⟨n, hlexeme, hn⟩ := lexemeAt?_name_iff locale hplain hrest
  have hle := (lexemeAt?_le hlexeme).2
  rw [List.length_append, Nat.add_le_add_iff_left] at hle
  obtain ⟨extra, more, hsplit, rfl⟩ : ∃ extra more,
      QuotedName.following names ++ rest = extra ++ more ∧ extra.length = n :=
    ⟨_, _, (List.take_append_drop n _).symm, List.length_take_of_le hle⟩
  rw [hsplit, ← List.append_assoc, ← List.length_append] at hlexeme
  rw [hsplit, ← List.append_assoc, cut_append hlexeme] at h
  have hkind := q.style.kind_ne
  obtain ⟨after', hafter, hmore⟩ :=
    Lexing.Become.uncons (l := (q.style.kind, q.image ++ extra)) h hkind.1
  rw [List.filter_cons_of_pos (by simpa using hkind.2)] at hafter
  obtain ⟨hfirst, rfl⟩ := List.cons.inj hafter
  -- if it went on, the token would have a longer text
  obtain rfl : extra = [] := by
    by_contra hne
    exact text_ne_of_longer (hplain q List.mem_cons_self) hne (Prod.mk.inj hfirst).2 htext
  exact ⟨hn.1 rfl, hsplit ▸ hmore⟩

/-- Names of which the texts are those of the tokens keep apart. -/
theorem keepApart_of_become {literals : List Literal} {commas : List Token}
    {after : List (TokenKind × List Char)} (hplain : ∀ q' ∈ q :: names, q'.IsPlain)
    (hrest : ∀ s : QuoteStyle, Shape.closingLength? s.closes rest = none)
    (htexts : literals.map Literal.text = (q :: names).map fun q => String.ofList q.text)
    (hcommas : commas.length = names.length)
    (h : Lexing.Become
      (cut locale.regularTerminals (q.image ++ (QuotedName.following names ++ rest)))
      ((separated (literals.map Literal.token) commas).map Token.lexeme ++ after)) :
    QuoteStyle.KeepApart ((q :: names).map QuotedName.style) := by
  induction names generalizing q literals commas with
  | nil => exact ⟨by cases q.style <;> simp [QuoteStyle.EndsBefore], trivial⟩
  | cons q' names ih =>
    obtain ⟨l, literals, rfl, htext, htexts⟩ := List.map_eq_cons_iff.1 htexts
    obtain ⟨comma, commas, rfl⟩ := List.exists_cons_of_length_eq_add_one hcommas
    obtain ⟨hends, h⟩ := endsBefore_of_become hplain hrest htext h
    have hfollowing : QuotedName.following (q' :: names) ++ rest =
        ',' :: ' ' :: (q'.image ++ (QuotedName.following names ++ rest)) := by
      simp [QuotedName.following]
    -- after the first name come a comma and a space
    rw [hfollowing, cut_separator] at h
    obtain ⟨_, hcomma, hblanks⟩ := Lexing.Become.uncons (l := (.comma, [','])) h (by decide)
    obtain ⟨_, rfl, hnames⟩ := Lexing.Become.uncons (l := (.blanks, [' '])) hblanks (by decide)
    refine ⟨hends, ih (fun q hq => hplain q (List.mem_cons_of_mem _ hq)) htexts
      (Nat.succ_inj.1 hcommas) ?_⟩
    exact Eq.subst (motive := Lexing.Become _) (List.cons.inj hcomma).2.symm hnames

end Tokens

/-- What is written like a line whose names keep apart is an alignment with these names. -/
theorem NamingLine.exists_alignment {locale : Locale} (l : NamingLine locale) {q : QuotedName}
    {names : List QuotedName} (hnames : l.names = q :: names) {tokens : List Token}
    (htokens : tokens.map Token.lexeme = (.keyword .blocks, l.keyword) :: (q.readLexemes names ++
      [(.keyword .aligned, l.aligned), (.keyword l.axis.keyword, l.axisWord),
        (.lineEnd, ['\n'])])) :
    ∃ a : Alignment, a.IsWellFormed ∧ a.written = tokens ∧ a.titles = l.texts ∧
      a.commas.length + 1 = l.names.length := by
  obtain ⟨keyword, _, rfl, hkeyword, hmore⟩ := List.map_eq_cons_iff.1 htokens
  obtain ⟨named, _, rfl, hnamed, hmore⟩ := List.map_eq_append_iff.1 hmore
  obtain ⟨aligned, _, rfl, haligned, hmore⟩ := List.map_eq_cons_iff.1 hmore
  obtain ⟨axisWord, _, rfl, haxis, hmore⟩ := List.map_eq_cons_iff.1 hmore
  obtain ⟨lineEnd, _, rfl, hlineEnd, hmore⟩ := List.map_eq_cons_iff.1 hmore
  obtain rfl := List.map_eq_nil_iff.1 hmore
  obtain ⟨literals, commas, rfl, htexts, hwell, hcommas, hlength⟩ :=
    exists_literals (hnames ▸ l.names_plain) hnamed
  -- one comma less than names
  have hbetween : commas.length = literals.length - 1 := by
    have := congrArg List.length htexts
    rw [List.length_map, List.length_map, List.length_cons] at this
    omega
  refine ⟨⟨keyword, literals, commas, aligned, none, axisWord, l.axis, lineEnd⟩,
    ⟨(Prod.mk.inj hkeyword).1, hwell, hcommas, hbetween, (Prod.mk.inj haligned).1, nofun,
      (Prod.mk.inj haxis).1, (Prod.mk.inj hlineEnd).1⟩, rfl, ?_, ?_⟩
  · rw [texts, hnames]
    exact htexts
  · rw [hnames]
    exact congrArg Nat.succ hlength

/-! ## The alignment in the scene -/

section Parsing

variable {limit : Nat} {tokens more : List Token} {pages : List Page} {p : Page} {a : Alignment}

/-- Scenes without comments are the same if they are with comments. -/
theorem Scene.eq_of_comments {s s' : Scene} (hs : s.comments = []) (hs' : s'.comments = [])
    {comments comments' : List Comment}
    (h : { s with comments := comments } = { s' with comments := comments' }) : s = s' := by
  obtain ⟨hpages, hlineEnds, -⟩ := Scene.mk.inj h
  cases s
  cases s'
  exact congr (congrArg₂ Scene.mk hpages hlineEnds) (hs.trans hs'.symm)

/-- What is parsed has no comments. -/
theorem Parsing.comments_scene (limit : Nat) (tokens : List Token) :
    (ofTokens limit tokens).scene.comments = [] := by
  obtain ⟨-, -, hcomments, -⟩ := exists_rows limit tokens
  exact hcomments

/-- Where a scene ends, more tokens are parsed to one more alignment exactly if they are those of
    it. -/
theorem Parsing.ofTokens_align_iff (h : (ofTokens limit tokens).errors = [])
    (hpages : (ofTokens limit tokens).scene.pages = pages ++ [p]) :
    ofTokens limit (tokens ++ more) =
        ⟨{ (ofTokens limit tokens).scene with pages := pages ++ [p.align a] }, []⟩ ↔
      a.IsWellFormed ∧ kept more = a.written := by
  obtain ⟨rows, hreads, hcomments, hwell, hrows⟩ := exists_greedy_rows h
  have hscene : (ofTokens limit tokens).scene =
      { (ofTokens limit tokens).scene with pages := pages ++ [p] } := by rw [← hpages]
  rw [hscene] at hreads
  constructor
  · intro hmore
    have hnone : (ofTokens limit (tokens ++ more)).errors = [] := by rw [hmore]
    obtain ⟨rows', hreads', -, hwell', hrows'⟩ := exists_greedy_rows hnone
    rw [hmore] at hreads'
    obtain ⟨front, rfl, hfront⟩ := Scene.reads_align_iff.1 hreads'
    rw [kept_append, Row.tokens_append, ← hrows] at hrows'
    -- the first rows are those of the scene before, so what is left is the alignment
    have hlength := hfront.leaves_perm.length_eq.symm.trans hreads.leaves_perm.length_eq
    refine ⟨hwell' _ (List.mem_append_right _ List.mem_cons_self), ?_⟩
    rw [← (List.append_inj hrows' hlength).2, Row.tokens_cons, Row.tokens_nil, List.append_nil]
    rfl
  · rintro ⟨ha, hmore⟩
    refine ofTokens_of_reads (Scene.reads_align_iff.2 ⟨rows, rfl, hreads⟩) hcomments
      (List.forall_mem_append.2 ⟨hwell, List.forall_mem_singleton.2 ha⟩) ?_ limit
    rw [kept_append, Row.tokens_append, hrows, hmore, Row.tokens_cons, Row.tokens_nil,
      List.append_nil]
    rfl

end Parsing

/-! ## The line in a text -/

section Reading

variable {o : ReadingOptions} {text : List Char} {locale : Locale} {s : Scene} {tokens : List Token}

/-- The names of a line that is lexed to an alignment with their texts keep apart. -/
theorem NamingLine.keepApart_of_tokens (l : NamingLine locale) {a : Alignment}
    (htokens : (Lexing.ofText locale l.chars).tokens.map Token.lexeme = a.written.map Token.lexeme)
    (htitles : a.titles = l.texts) (hcommas : a.commas.length + 1 = l.names.length) :
    QuoteStyle.KeepApart l.styles := by
  obtain ⟨q, names, hnames⟩ := List.exists_cons_of_ne_nil l.names_ne_nil
  have hbecome : Lexing.Become (cut locale.regularTerminals l.chars)
      (a.written.map Token.lexeme) := ⟨.fresh, 0, .start, rfl, htokens⟩
  rw [l.cut_chars hnames] at hbecome
  obtain ⟨_, hkeyword, hblanks⟩ :=
    Lexing.Become.uncons (l := (.keyword .blocks, l.keyword)) hbecome (by simp)
  obtain ⟨more, hmore, hnamed⟩ := Lexing.Become.uncons (l := (.blanks, [' '])) hblanks (by simp)
  have hwritten : (separated (a.names.map Literal.token) a.commas).map Token.lexeme ++
      (a.aligned :: a.direction.leaves).map Token.lexeme = more :=
    List.map_append.symm.trans ((List.cons.inj hkeyword).2.trans hmore)
  rw [← hwritten] at hnamed
  rw [styles, hnames]
  exact keepApart_of_become (hnames ▸ l.names_plain) l.closingLength?_ending
    (htitles.trans (by rw [texts, hnames])) (Nat.succ_inj.1 (hcommas.trans (by rw [hnames]; rfl)))
    hnamed

/-- At the end of a text that is read, a line that names blocks is read to one more alignment with
    the names exactly if they keep apart. -/
theorem Reading.ofText_naming_iff (o : ReadingOptions) (l : NamingLine locale) {pages : List Page}
    {p : Page} (htext : text.getLast? = some '\n')
    (hread : ofText o text = .success locale s tokens) (hpages : s.pages = pages ++ [p]) :
    (∃ a tokens', ofText o (text ++ l.chars) =
        .success locale { s with pages := pages ++ [p.align a] } tokens' ∧
      a.titles = l.texts ∧ a.commas.length + 1 = l.names.length) ↔
    QuoteStyle.KeepApart l.styles := by
  have hchars : l.chars.getLast? = some '\n' := by
    simp [NamingLine.chars, NamingLine.ending, List.getLast?_append, List.getLast?_cons]
  have hmoved := Parsing.kept_moved locale (byteLength text) (text.count '\n') l.chars
  obtain ⟨-, -, -, hparse, hs⟩ := of_success hread
  rw [hs] at hpages
  constructor
  · rintro ⟨a, tokens', hread', htitles, hcommas⟩
    obtain ⟨-, rfl, hparse', hs'⟩ := (ofText_lines_eq_success_iff htext hread hchars).1 hread'
    have hparsing : Parsing.ofTokens o.errorLimit
        (tokens ++ (Lexing.ofText locale l.chars).tokens.map
          (.moved (byteLength text) (text.count '\n'))) =
        ⟨{ (Parsing.ofTokens o.errorLimit tokens).scene with pages := pages ++ [p.align a] },
          []⟩ := by
      have hcomments := Parsing.comments_scene o.errorLimit
      rw [hs] at hs'
      exact congrArg₂ Parsing.mk
        (Scene.eq_of_comments (hcomments _) (hcomments tokens) hs'.symm) hparse'
    obtain ⟨-, hwritten⟩ := (Parsing.ofTokens_align_iff hparse hpages).1 hparsing
    refine l.keepApart_of_tokens ?_ htitles hcommas
    rw [← map_lexeme_moved (byteLength text) (text.count '\n'), ← hmoved, hwritten]
  · intro hapart
    obtain ⟨q, names, hnames⟩ := List.exists_cons_of_ne_nil l.names_ne_nil
    obtain ⟨lineTokens, hlexing, hlexemes⟩ := l.exists_tokens hnames hapart
    rw [← map_lexeme_moved (byteLength text) (text.count '\n')] at hlexemes
    obtain ⟨a, hwell, hwritten, htitles, hcommas⟩ := l.exists_alignment hnames hlexemes
    rw [hlexing] at hmoved
    have hparse' := (Parsing.ofTokens_align_iff hparse hpages).2 ⟨hwell, hmoved.trans hwritten.symm⟩
    refine ⟨a, _, (ofText_lines_eq_success_iff htext hread hchars).2 ⟨by rw [hlexing], rfl, ?_, ?_⟩,
      htitles, hcommas⟩
    · rw [hlexing, hparse']
    · rw [hlexing, hparse', List.map_nil, List.map_nil, List.append_nil, hs]

/-- Names in all three styles that keep apart, the one in guillemets last. -/
theorem Reading.ofText_naming_iff_mixed :
    ∃ (names : List QuotedName) (hne : names ≠ []) (hplain : ∀ q ∈ names, q.IsPlain) (s : Scene)
      (tokens : List Token) (p : Page),
      names.map QuotedName.style = [.angles, .double, .angles, .guillemets] ∧
      "Page: A\n".toList.getLast? = some '\n' ∧
      ofText .standard "Page: A\n".toList = .success .english s tokens ∧ s.pages = [] ++ [p] ∧
      ∃ a tokens', ofText .standard ("Page: A\n".toList ++
          (NamingLine.english names hne hplain).chars) =
        .success .english { s with pages := [] ++ [p.align a] } tokens' ∧
      a.titles = ["a", "b", "c", "d"] := by
  let names : List QuotedName :=
    [⟨.angles, ['a']⟩, ⟨.double, ['b']⟩, ⟨.angles, ['c']⟩, ⟨.guillemets, ['d']⟩]
  have hne : names ≠ [] := List.cons_ne_nil _ _
  have hplain : ∀ q ∈ names, q.IsPlain := by
    simp only [names, QuotedName.IsPlain]
    decide
  have htext : "Page: A\n".toList.getLast? = some '\n' := rfl
  have hsuccess : (ofText .standard "Page: A\n".toList).isSuccess = true := by decide +kernel
  obtain ⟨locale, s, tokens, hread⟩ := exists_of_isSuccess hsuccess
  have hlocale : (ofText .standard "Page: A\n".toList).locale? = some .english := by decide +kernel
  have hpages : (ofText .standard "Page: A\n".toList).scene?.map (·.pages.length) = some 1 := by
    decide +kernel
  rw [hread] at hlocale hpages
  obtain rfl := Option.some.inj hlocale
  obtain ⟨p, hp⟩ : ∃ p, s.pages = [] ++ [p] := List.length_eq_one_iff.1 (Option.some.inj hpages)
  obtain ⟨a, tokens', hboth, htitles, -⟩ :=
    (ofText_naming_iff .standard (.english names hne hplain) htext hread hp).2
      (show QuoteStyle.KeepApart [.angles, .double, .angles, .guillemets] by decide)
  exact ⟨names, hne, hplain, s, tokens, p, rfl, htext, hread, hp, a, tokens', hboth, htitles⟩

/-- The first of two names in guillemets goes on to the end of the second one. -/
theorem Reading.not_ofText_naming : ¬ ∀ l : NamingLine .english, ∃ s tokens,
    ofText .standard ("Page: A\n".toList ++ l.chars) = .success .english s tokens ∧
      ∃ a ∈ s.pages.flatMap fun p => p.groups.filterMap BlockGroup.alignment,
        a.titles = l.texts ∧ a.commas.length + 1 = l.names.length := by
  intro h
  let names : List QuotedName := [⟨.guillemets, ['a']⟩, ⟨.guillemets, ['b']⟩]
  have hplain : ∀ q ∈ names, q.IsPlain := by
    simp only [names, QuotedName.IsPlain]
    decide
  obtain ⟨s, tokens, hread, a, ha, htitles, -⟩ := h (.english names (List.cons_ne_nil _ _) hplain)
  have hone : (ofText .standard ("Page: A\n".toList ++
      "blocks «a», «b» aligned in rows\n".toList)).scene?.map (fun s => (s.pages.flatMap fun p =>
        p.groups.filterMap BlockGroup.alignment).map Alignment.titles) = some [["a», «b"]] := by
    decide +kernel
  have hchars : (NamingLine.english names (List.cons_ne_nil _ _) hplain).chars =
      "blocks «a», «b» aligned in rows\n".toList := rfl
  rw [← hchars, hread] at hone
  have hmem : a.titles ∈ [["a», «b"]] := by
    rw [← Option.some.inj hone]
    exact List.mem_map_of_mem ha
  rw [htitles] at hmem
  exact absurd hmem (show ["a", "b"] ∉ [["a», «b"]] by decide)

end Reading

end Wireframe
