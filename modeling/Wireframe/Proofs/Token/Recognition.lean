import Wireframe.Proofs.Token.Form
import Wireframe.Proofs.Token.Shift
import Wireframe.Proofs.Token.Unambiguous

/-!
# Words are recognised exactly

The terminal of a word tries the forms of the word in a fixed order and takes the first one that
matches. What it matches is the longest front of the text that is written as any of the forms
(`Locale.length?_eq_some_iff`), because a form with more marks spells more of every text. No other
terminal matches there, so the lexer, wherever it comes to such a place (`Locale.Reaches`), makes a
token of that front, whatever follows.
-/

namespace Wireframe

open Text

namespace Dictionary

/-- A word, with the rest of a text after it, is written as a form of a kind of token: it spells the
    form, and if the form ends in a letter no letter comes next. -/
def Writes (d : Dictionary) (kind : TokenKind) (word rest : List Char) : Prop :=
  ∃ form ∈ d.formsOf kind, d.SpellsForm form.toList word ∧
    ((∃ c ∈ form.toList.getLast?, isLetter c) → ∀ c ∈ rest.head?, isLetter c = false)

/-- A word that is written as a form of a kind, and the longest front of the text that is. -/
structure WritesLongest (d : Dictionary) (kind : TokenKind) (word rest : List Char) : Prop where
  writes : d.Writes kind word rest
  longest : ∀ word' rest', word' ++ rest' = word ++ rest → d.Writes kind word' rest' →
    byteLength word' ≤ byteLength word

end Dictionary

/-- The number of bytes that a terminal matches at the front of a text. -/
def Terminal.matchAt? (t : Terminal) (text : List Char) : Option Nat :=
  (t.shape.length? text).map fun n => byteLength (text.take n)

namespace Locale

variable {locale : Locale} {kind : TokenKind} {text word rest : List Char} {n : Nat}

/-! ## What a word matches -/

/-- A front is written as a form of a kind exactly if a form of the terminal matches it. -/
theorem writes_iff : locale.dictionary.Writes kind word rest ↔
    ∃ f ∈ (locale.wordTerminal kind).forms,
      Shape.formLength? f (word ++ rest) = some word.length := by
  have hbounded (form : String) : ((∃ c ∈ form.toList.getLast?, isLetter c) →
      ∀ c ∈ rest.head?, isLetter c = false) ↔
        ((locale.dictionary.wordForm form).bounded = true → rest.head?.any isLetter = false) := by
    rw [Dictionary.wordForm]
    cases form.toList.getLast? <;> cases rest.head? <;> simp
  constructor
  · rintro ⟨form, hform, hword, hrest⟩
    refine ⟨_, mem_forms_wordTerminal.2 ⟨form, hform, rfl⟩, formLength?_eq_some_iff.2 ⟨?_, ?_⟩⟩
    · exact (spelledLength?_iff hform).2 ⟨word, rest, rfl, hword, rfl⟩
    · rw [List.drop_left]
      exact (hbounded form).1 hrest
  · rintro ⟨f, hf, hlength⟩
    obtain ⟨form, hform, rfl⟩ := mem_forms_wordTerminal.1 hf
    obtain ⟨hspelled, hrest⟩ := formLength?_eq_some_iff.1 hlength
    obtain ⟨word', rest', htext, hword, hlength⟩ := (spelledLength?_iff hform).1 hspelled
    obtain ⟨rfl, rfl⟩ := List.append_inj htext hlength.symm
    rw [List.drop_left] at hrest
    exact ⟨form, hform, hword, (hbounded form).2 hrest⟩

/-- What the terminal of a word matches is written as one of its forms, and nothing longer is. -/
theorem writesLongest_of_length? (hkind : kind.isWord)
    (h : (locale.wordTerminal kind).shape.length? text = some n) :
    ∃ word rest, text = word ++ rest ∧ word.length = n ∧
      locale.dictionary.WritesLongest kind word rest := by
  have hmem : locale.wordTerminal kind ∈ locale.wordTerminals := wordTerminal_mem hkind
  obtain ⟨l, f, r, hforms, -, hf⟩ := exists_first hmem h
  have hle := spelledLength?_le (WordForm.spaced (isOrderly_of_mem (mem_forms hmem
    (hforms ▸ List.mem_append_right l List.mem_cons_self)))) (formLength?_eq_some_iff.1 hf).1
  obtain ⟨word, rest, rfl, rfl⟩ : ∃ word rest, text = word ++ rest ∧ word.length = n :=
    ⟨_, _, (List.take_append_drop n _).symm, List.length_take_of_le hle⟩
  refine ⟨word, rest, rfl, rfl, writes_iff.2 ⟨f, ?_, hf⟩, fun word' rest' heq hword' => ?_⟩
  · exact hforms ▸ List.mem_append_right l List.mem_cons_self
  · obtain ⟨f', hf', hlength⟩ := writes_iff.1 hword'
    rw [byteLength_le_iff heq]
    exact formLength?_le hmem h hf' (heq ▸ hlength)

theorem isSome_length?_of_writes (hkind : kind.isWord)
    (h : locale.dictionary.Writes kind word rest) :
    ∃ n, (locale.wordTerminal kind).shape.length? (word ++ rest) = some n := by
  obtain ⟨f, hf, hlength⟩ := writes_iff.1 h
  refine Option.ne_none_iff_exists'.1 fun hnone => ?_
  rw [(length?_eq_none_iff (wordTerminal_mem hkind)).1 hnone f hf] at hlength
  cases hlength

/-- The terminal of a word matches the longest front that is written as one of its forms. -/
theorem length?_eq_some_iff (hkind : kind.isWord) :
    (locale.wordTerminal kind).shape.length? text = some n ↔
      ∃ word rest, text = word ++ rest ∧ word.length = n ∧
        locale.dictionary.WritesLongest kind word rest := by
  refine ⟨writesLongest_of_length? hkind, ?_⟩
  rintro ⟨word, rest, rfl, rfl, h⟩
  obtain ⟨m, hm⟩ := isSome_length?_of_writes hkind h.writes
  obtain ⟨word', rest', heq, rfl, h'⟩ := writesLongest_of_length? hkind hm
  have hle := (byteLength_le_iff heq.symm).1 (h.longest word' rest' heq.symm h'.writes)
  have hge := (byteLength_le_iff heq).1 (h'.longest word rest heq h.writes)
  rw [hm, Nat.le_antisymm hle hge]

/-- The terminal of a word is the one of its kind. -/
theorem terminal?_eq (hkind : kind.isWord) :
    locale.terminal? kind = some (locale.wordTerminal kind) := by
  have hmem : locale.wordTerminal kind ∈ locale.regularTerminals :=
    mem_regularTerminals.2 (.inr (wordTerminal_mem hkind))
  have hsome : (locale.terminal? kind).isSome :=
    List.find?_isSome.2 ⟨_, List.mem_append_left _ hmem, decide_eq_true rfl⟩
  obtain ⟨t, ht⟩ := Option.isSome_iff_exists.1 hsome
  have htkind : t.kind = kind := by simpa using List.find?_some ht
  rcases List.mem_append.1 (List.mem_of_find?_eq_some ht) with hreg | hcatch
  · rw [ht, List.inj_on_of_nodup_map locale.nodup_kinds hreg hmem htkind]
  · rw [List.mem_singleton.1 hcatch] at htkind
    rw [← htkind] at hkind
    cases hkind

/-- What the terminal of a word matches is the lexeme: no other terminal matches there. -/
theorem lexemeAt?_of_length? {t : Terminal} (ht : t ∈ locale.wordTerminals)
    (h : t.shape.length? text = some n) :
    lexemeAt? locale.regularTerminals text = some (t.kind, n) := by
  rw [lexemeAt?]
  cases hmatch : longestMatch? locale.regularTerminals text with
  | none =>
    rw [Wireframe.longestMatch?_eq_none_iff.1 hmatch t (mem_regularTerminals.2 (.inr ht))] at h
    cases h
  | some found =>
    obtain ⟨⟨u, hu, hkind, hfound⟩, -⟩ := longestMatch?_eq_some hmatch
    rcases mem_regularTerminals.1 hu with hshared | hword
    · rw [shared_eq_none_of_word ht h hshared] at hfound
      cases hfound
    · obtain rfl := eq_of_word hword ht hfound h
      exact congrArg some (Prod.ext hkind.symm (Option.some.inj (hfound.symm.trans h)))

/-- A word that is spelled by a form is the lexeme, unless a longer form goes
    on into what follows. -/
theorem lexemeAt?_of_spelling {t : Terminal} {f : WordForm} {squeezed : List Char}
    (ht : t ∈ locale.wordTerminals) (hf : f ∈ t.forms) (hspelling : Spelling f.marks word squeezed)
    (hnext : rest.head?.any isLetter = false)
    (hlonger : ∀ g ∈ locale.forms, f.marks.length < g.marks.length →
      Shape.formLength? g (word ++ rest) = none) :
    lexemeAt? locale.regularTerminals (word ++ rest) = some (t.kind, word.length) := by
  have hform : Shape.formLength? f (word ++ rest) = some word.length :=
    formLength?_eq_some_iff.2 ⟨hspelling.length_eq rest, fun _ => by rwa [List.drop_left]⟩
  obtain ⟨n, hn⟩ : ∃ n, t.shape.length? (word ++ rest) = some n := by
    refine Option.ne_none_iff_exists'.1 fun hnone => ?_
    rw [(length?_eq_none_iff ht).1 hnone f hf] at hform
    cases hform
  have hle := formLength?_le ht hn hf hform
  obtain ⟨l, g, r, hforms, -, hg⟩ := exists_first ht hn
  have hmem := mem_forms ht (hforms ▸ List.mem_append_right l List.mem_cons_self)
  have hge : n ≤ word.length := by
    refine Nat.le_of_not_lt fun hlt => ?_
    rw [hlonger g hmem ((formLength?_lt_iff (mem_forms ht hf) hmem hform hg).1 hlt)] at hg
    cases hg
  rw [lexemeAt?_of_length? ht hn, Nat.le_antisymm hge hle]

/-- Where a word is written, it is the lexeme. -/
theorem lexemeAt?_of_writesLongest (hkind : kind.isWord)
    (h : locale.dictionary.WritesLongest kind word rest) :
    lexemeAt? locale.regularTerminals (word ++ rest) = some (kind, word.length) :=
  lexemeAt?_of_length? (wordTerminal_mem hkind)
    ((length?_eq_some_iff hkind).2 ⟨word, rest, rfl, rfl, h⟩)

/-- A word is the lexeme before a character that can neither go on in it nor begin a word, and
    spaces and tabs may stand in between. -/
theorem lexemeAt?_word {blanks : List Char} (h : locale.dictionary.SpellsWord kind word)
    (hblanks : ∀ b ∈ blanks, isGap b) (hrest : ∀ c ∈ rest.head?, IsUnread c ∧ isGap c = false) :
    lexemeAt? locale.regularTerminals (word ++ (blanks ++ rest)) = some (kind, word.length) := by
  obtain ⟨hkind, f, hf, squeezed, hspelling⟩ := exists_spelling h
  have hmem : locale.wordTerminal kind ∈ locale.wordTerminals := wordTerminal_mem hkind
  refine lexemeAt?_of_spelling hmem hf hspelling ?_ fun g hg hlt =>
    formLength?_eq_none_of_unread (mem_forms hmem hf) hg hspelling hlt hblanks hrest
  cases blanks with
  | cons b blanks => exact isLetter_of_isBlank (isBlank_of_isGap (hblanks b List.mem_cons_self))
  | nil =>
    cases rest with
    | nil => rfl
    | cons c rest => exact (hrest c rfl).1.1

/-- A word is the lexeme before a space and a word that may follow it. -/
theorem lexemeAt?_word_follows {kind' : TokenKind} {word' : List Char}
    (h : locale.dictionary.SpellsWord kind word) (h' : locale.dictionary.SpellsWord kind' word')
    (hfollow : kind.mayFollow kind') (rest : List Char) :
    lexemeAt? locale.regularTerminals (word ++ ' ' :: (word' ++ rest)) =
      some (kind, word.length) := by
  obtain ⟨hkind, f, hf, squeezed, hspelling⟩ := exists_spelling h
  obtain ⟨hkind', f', hf', squeezed', hspelling'⟩ := exists_spelling h'
  have hmem : locale.wordTerminal kind ∈ locale.wordTerminals := wordTerminal_mem hkind
  exact lexemeAt?_of_spelling hmem hf hspelling (isLetter_of_isBlank (by decide)) fun g hg hlt =>
    formLength?_eq_none_of_follows hmem hf hg hspelling hlt (wordTerminal_mem hkind') hf' hfollow
      hspelling' rest

/-! ## Where the lexer comes -/

/-- The lexer comes to a place in a text, with some of the text before it and the rest after it: it
    begins at the front, goes on after a lexeme, and passes over a character at which there is
    none. -/
inductive Reaches (locale : Locale) (source : List Char) : List Char → List Char → Prop
  | start : Reaches locale source [] source
  | lexeme {kind : TokenKind} {before image rest : List Char} :
    Reaches locale source before (image ++ rest) →
      lexemeAt? locale.regularTerminals (image ++ rest) = some (kind, image.length) →
        Reaches locale source (before ++ image) rest
  | stray {before rest : List Char} {c : Char} : Reaches locale source before (c :: rest) →
    lexemeAt? locale.regularTerminals (c :: rest) = none →
      Reaches locale source (before ++ [c]) rest

theorem flatMap_image_consStray (stray : List Char) :
    (stray.foldr consStray []).flatMap Piece.image = stray := by
  induction stray with
  | nil => rfl
  | cons c stray ih =>
    rw [List.foldr_cons]
    generalize stray.foldr consStray [] = pieces at ih
    rw [← ih, consStray.eq_def]
    split <;> rfl

theorem foldr_consStray_lexeme (stray image : List Char) (more : List Piece) :
    stray.foldr consStray (.lexeme kind image :: more) =
      stray.foldr consStray [] ++ .lexeme kind image :: more := by
  induction stray with
  | nil => rfl
  | cons c stray ih => rw [List.foldr_cons, ih, consStray_append, List.foldr_cons]

variable {source before : List Char}

/-- Up to a place that the lexer comes to there are pieces, and stray characters after the last of
    them, which may go on there. -/
theorem Reaches.pieces (h : locale.Reaches source before rest) : ∃ pieces stray,
    before = pieces.flatMap Piece.image ++ stray ∧
      locale.pieces source =
        pieces ++ stray.foldr consStray (cut locale.regularTerminals rest) := by
  induction h with
  | start => exact ⟨[], [], rfl, rfl⟩
  | @lexeme kind before image rest _ hlexeme ih =>
    obtain ⟨pieces, stray, rfl, hpieces⟩ := ih
    rw [cut_append hlexeme, foldr_consStray_lexeme] at hpieces
    refine ⟨pieces ++ (stray.foldr consStray [] ++ [.lexeme kind image]), [], ?_, ?_⟩
    · simp [flatMap_image_consStray, Piece.image]
    · simp [hpieces]
  | @stray before rest c _ hnone ih =>
    obtain ⟨pieces, stray, rfl, hpieces⟩ := ih
    refine ⟨pieces, stray ++ [c], List.append_assoc .., ?_⟩
    rw [hpieces, cut_none hnone, List.foldr_append]
    rfl

/-- A lexeme at a place that the lexer comes to is a piece. -/
theorem Reaches.pieces_lexeme (h : locale.Reaches source before (word ++ rest))
    (hlexeme : lexemeAt? locale.regularTerminals (word ++ rest) = some (kind, word.length)) :
    ∃ front back, before = front.flatMap Piece.image ∧
      locale.pieces source = front ++ .lexeme kind word :: back := by
  obtain ⟨pieces, stray, rfl, hpieces⟩ := h.pieces
  rw [cut_append hlexeme, foldr_consStray_lexeme, ← List.append_assoc] at hpieces
  refine ⟨_, _, ?_, hpieces⟩
  rw [List.flatMap_append, flatMap_image_consStray]

end Locale

/-- A word among the pieces of a text is a token. -/
theorem Lexing.mem_tokens_of_word {kind : TokenKind} (hkind : kind.isWord) (image : List Char)
    (front back : List Piece) :
    ⟨kind, String.ofList image, .ofText (byteLength (front.flatMap Piece.image))
        (Position.start.advance (front.flatMap Piece.image)) image⟩ ∈
      (ofPieces (front ++ .lexeme kind image :: back)).tokens := by
  rw [ofPieces, locate_append, sift_append, locate, sift_cons, Nat.zero_add]
  refine List.mem_append_right _ (List.mem_append_left _ ?_)
  cases kind <;> first | exact List.mem_cons_self | exact Bool.noConfusion hkind

/-- The terminal of a word matches where a front of the text is written as one of its forms,
    and then the longest such front; and where the lexer comes to a place with such a front,
    it makes a token of it. -/
theorem Lexing.recognises (locale : Locale) {kind : TokenKind} (hkind : kind.isWord) :
    ∃ t, locale.terminal? kind = some t ∧
      (∀ text, (t.matchAt? text).isSome ↔
        ∃ word rest, text = word ++ rest ∧ locale.dictionary.Writes kind word rest) ∧
      (∀ text n, t.matchAt? text = some n ↔ ∃ word rest, text = word ++ rest ∧
        locale.dictionary.WritesLongest kind word rest ∧ n = byteLength word) ∧
      ∀ source before word rest, locale.Reaches source before (word ++ rest) →
        locale.dictionary.WritesLongest kind word rest →
          ⟨kind, String.ofList word,
              .ofText (byteLength before) (Position.start.advance before) word⟩ ∈
            (ofText locale source).tokens := by
  refine ⟨_, Locale.terminal?_eq hkind, fun text => ?_, fun text n => ?_,
    fun source before word rest hreaches hword => ?_⟩
  · rw [Terminal.matchAt?, Option.isSome_map, Option.isSome_iff_exists]
    constructor
    · rintro ⟨n, hn⟩
      obtain ⟨word, rest, htext, -, h⟩ := (Locale.length?_eq_some_iff hkind).1 hn
      exact ⟨word, rest, htext, h.writes⟩
    · rintro ⟨word, rest, rfl, h⟩
      exact Locale.isSome_length?_of_writes hkind h
  · rw [Terminal.matchAt?, Option.map_eq_some_iff]
    constructor
    · rintro ⟨m, hm, rfl⟩
      obtain ⟨word, rest, rfl, rfl, h⟩ := (Locale.length?_eq_some_iff hkind).1 hm
      exact ⟨word, rest, rfl, h, by rw [List.take_left]⟩
    · rintro ⟨word, rest, rfl, h, rfl⟩
      exact ⟨word.length, (Locale.length?_eq_some_iff hkind).2 ⟨word, rest, rfl, rfl, h⟩,
        by rw [List.take_left]⟩
  -- the lexer cuts the word out where it comes to it, and every such piece becomes a token
  · obtain ⟨front, back, rfl, hpieces⟩ :=
      hreaches.pieces_lexeme (Locale.lexemeAt?_of_writesLongest hkind hword)
    rw [ofText, hpieces]
    exact mem_tokens_of_word hkind word front back

/-- The longer form is recognised over the shorter one, with a Kelvin sign for its `k` and two
    spaces for its space. -/
theorem Lexing.recognises_kelvin : (TokenKind.keyword .button).isWord ∧
    ∃ word rest, "LIN\u212A  to a".toList = word ++ rest ∧
      Dictionary.english.WritesLongest (.keyword .button) word rest ∧ byteLength word = 10 ∧
      ⟨.keyword .button, String.ofList word, .ofText 0 .start word⟩ ∈
        (ofText .english "LIN\u212A  to a".toList).tokens := by
  have hkind : (TokenKind.keyword .button).isWord := rfl
  obtain ⟨t, ht, -, hmatch, hlexer⟩ := recognises .english hkind
  obtain rfl : Locale.english.wordTerminal (.keyword .button) = t :=
    Option.some.inj ((Locale.terminal?_eq rfl).symm.trans ht)
  obtain ⟨word, rest, htext, hword, hbytes⟩ :=
    (hmatch "LIN\u212A  to a".toList 10).1 (by decide +kernel)
  rw [htext]
  exact ⟨rfl, word, rest, rfl, hword, hbytes.symm, hlexer _ [] word rest .start hword⟩

end Wireframe
