import Wireframe.Proofs.Token.FreeText
import Wireframe.Proofs.Token.Order

/-!
# Where tokens were written

A text that is lexed without errors is cut into lexemes (`Lexed`), and its tokens stand in lines: of
each line that ends, the text that begins with its words is known up to the blanks between them
(`Written`). This is what a word that is printed again can be compared with (`scanned_of_lexed`).
-/

namespace Wireframe

open Text

/-! ## Matches end in the text -/

section Bounds

theorem takeWhile_length_le (p : Char → Bool) (text : List Char) :
    (text.takeWhile p).length ≤ text.length :=
  (List.takeWhile_sublist p).length_le

theorem lineBreakLength?_le {text : List Char} {n : Nat}
    (h : Shape.lineBreakLength? text = some n) : 0 < n ∧ n ≤ text.length := by
  rw [Shape.lineBreakLength?.eq_def] at h
  split at h <;> simp_all
  · omega
  · omega

theorem wholeLength_le (text : List Char) : Shape.wholeLength text ≤ text.length := by
  rw [Shape.wholeLength.eq_def]
  split
  · simp
  · next c rest _ =>
    have := takeWhile_length_le isDigit rest
    split
    · rw [List.length_cons, Shape.digitsLength]
      omega
    · exact Nat.zero_le _
  · exact Nat.le_refl 0

theorem decimalsLength_le (text : List Char) : Shape.decimalsLength text ≤ text.length := by
  rw [Shape.decimalsLength.eq_def]
  split
  · next rest =>
    have := takeWhile_length_le isDigit rest
    rw [Shape.digitsLength, List.length_cons]
    split <;> omega
  · exact Nat.zero_le _

theorem exponentLength_le (text : List Char) : Shape.exponentLength text ≤ text.length := by
  rw [Shape.exponentLength.eq_def]
  split
  · next e rest =>
    have hsign : ∀ sign : Nat, (if Shape.digitsLength (rest.drop sign) = 0 then 0
        else 1 + sign + Shape.digitsLength (rest.drop sign)) ≤ (e :: rest).length := by
      intro sign
      have := takeWhile_length_le isDigit (rest.drop sign)
      rw [List.length_drop] at this
      rw [Shape.digitsLength, List.length_cons]
      split <;> omega
    split
    · exact hsign _
    · exact Nat.zero_le _
  · exact Nat.le_refl 0

theorem numberLength_le (text : List Char) : Shape.numberLength text ≤ text.length := by
  have hsign : ∀ sign : Nat, (if Shape.wholeLength (text.drop sign) = 0 then 0 else
      let integer := sign + Shape.wholeLength (text.drop sign)
      let fixed := integer + Shape.decimalsLength (text.drop integer)
      fixed + Shape.exponentLength (text.drop fixed)) ≤ text.length := by
    intro sign
    have hwhole := wholeLength_le (text.drop sign)
    generalize Shape.wholeLength (text.drop sign) = whole at hwhole ⊢
    rw [List.length_drop] at hwhole
    split
    · exact Nat.zero_le _
    · have hdecimals := decimalsLength_le (text.drop (sign + whole))
      rw [List.length_drop] at hdecimals
      dsimp only
      generalize Shape.decimalsLength (text.drop (sign + whole)) = decimals at hdecimals ⊢
      have hexponent := exponentLength_le (text.drop (sign + whole + decimals))
      rw [List.length_drop] at hexponent
      omega
  exact hsign _

theorem closingLength?_le {closes : Char → Bool} {text : List Char} {n : Nat}
    (h : Shape.closingLength? closes text = some n) : n ≤ text.length := by
  induction text using escape_induction generalizing n with
  | nil => cases h
  | slash => cases h
  | escape c text ih =>
    rw [closingLength?_escape] at h
    split at h
    · cases h
    · obtain ⟨k, hk, rfl⟩ := Option.map_eq_some_iff.1 h
      have := ih hk
      rw [List.length_cons, List.length_cons]
      omega
  | plain c text hc ih =>
    rw [closingLength?_plain hc] at h
    cases hlength : Shape.closingLength? closes text with
    | none => grind
    | some k =>
      have := ih hlength
      grind

theorem freeTextLength_le (text : List Char) : Shape.freeTextLength text ≤ text.length := by
  fun_induction Shape.freeTextLength text with
  | case1 => exact Nat.le_refl 0
  | case2 => exact Nat.zero_le _
  | case3 => simp only [List.length_cons]; omega
  | case4 => exact Nat.zero_le _
  | case5 => simp only [List.length_cons]; omega
  | case6 => exact Nat.zero_le _

variable {locale : Locale} {text : List Char} {n : Nat}

theorem nonempty_le {m : Nat} (h : nonempty m = some n) (hle : m ≤ text.length) :
    0 < n ∧ n ≤ text.length := by
  obtain ⟨rfl, hne⟩ := nonempty_eq_some_iff.1 h
  exact ⟨Nat.pos_of_ne_zero hne, hle⟩

theorem lineEndLength?_le (h : Shape.lineEndLength? text = some n) : 0 < n ∧ n ≤ text.length := by
  obtain ⟨k, hk, rfl⟩ := Option.map_eq_some_iff.1 h
  have := lineBreakLength?_le hk
  rw [List.length_drop] at this
  omega

theorem commentLength?_le (h : Shape.commentLength? text = some n) : 0 < n ∧ n ≤ text.length := by
  rw [Shape.commentLength?.eq_def] at h
  split at h
  · next rest =>
    have := takeWhile_length_le (!Shape.isBreak ·) rest
    obtain rfl := Option.some.inj h
    simp only [List.length_cons]
    omega
  · cases h

/-- Something with delimiters, the first one of which is there. -/
theorem delimitedLength_le {closes : Char → Bool} {c : Char}
    (h : (Shape.closingLength? closes text).map (1 + ·) = some n) :
    0 < n ∧ n ≤ (c :: text).length := by
  obtain ⟨k, hk, rfl⟩ := Option.map_eq_some_iff.1 h
  have := closingLength?_le hk
  rw [List.length_cons]
  omega

theorem quotationLength?_le (h : Shape.quotationLength? text = some n) :
    0 < n ∧ n ≤ text.length := by
  rw [Shape.quotationLength?.eq_def] at h
  split at h
  · split at h
    · exact delimitedLength_le h
    · cases h
  · cases h

theorem placeholderLength?_le (h : Shape.placeholderLength? text = some n) :
    0 < n ∧ n ≤ text.length := by
  rw [Shape.placeholderLength?.eq_def] at h
  split at h
  · exact delimitedLength_le h
  · cases h

theorem singleLength?_le {c : Char} (h : (Shape.single c).length? text = some n) :
    0 < n ∧ n ≤ text.length := by
  rw [Shape.length?] at h
  split at h
  · next hc =>
    obtain rfl := Option.some.inj h
    obtain ⟨rest, rfl⟩ := List.head?_eq_some_iff.1 hc
    simp
  · cases h

theorem Terminal.length?_le_of_mem {t : Terminal} (ht : t ∈ shared)
    (h : t.shape.length? text = some n) : 0 < n ∧ n ≤ text.length := by
  simp only [shared, List.mem_cons, List.not_mem_nil, or_false] at ht
  rcases ht with rfl | rfl | rfl | rfl | rfl | rfl | rfl | rfl
  · exact lineEndLength?_le h
  · exact nonempty_le h (takeWhile_length_le _ _)
  · exact commentLength?_le h
  · exact nonempty_le h (numberLength_le _)
  · exact quotationLength?_le h
  · exact placeholderLength?_le h
  all_goals exact singleLength?_le h

/-- A match is a part of the text, and not empty. -/
theorem Locale.length?_le {t : Terminal} (ht : t ∈ locale.terminals)
    (h : t.shape.length? text = some n) : 0 < n ∧ n ≤ text.length := by
  rcases mem_terminals.1 ht with ht | ht | rfl
  · exact Terminal.length?_le_of_mem ht h
  · obtain ⟨l, f, r, hforms, -, hf⟩ := exists_first ht h
    have hmem := mem_forms ht (hforms ▸ List.mem_append_right l List.mem_cons_self)
    exact ⟨formLength?_pos hmem hf, spelledLength?_le
      (WordForm.spaced (isOrderly_of_mem hmem)) (formLength?_eq_some_iff.1 hf).1⟩
  · obtain ⟨rfl, hne⟩ := nonempty_eq_some_iff.1 h
    exact ⟨Nat.pos_of_ne_zero hne, freeTextLength_le text⟩

/-- A lexeme is what one of the terminals of a locale matches. -/
theorem exists_terminal {kind : TokenKind}
    (h : lexemeAt? locale.regularTerminals text = some (kind, n)) :
    ∃ t ∈ locale.terminals, t.kind = kind ∧ t.shape.length? text = some n := by
  cases hmatch : longestMatch? locale.regularTerminals text with
  | none =>
    rw [lexemeAt?, hmatch] at h
    obtain ⟨m, hm, heq⟩ := Option.map_eq_some_iff.1 h
    obtain ⟨rfl, rfl⟩ := Prod.mk.inj heq
    exact ⟨.catchAll, List.mem_append_right _ List.mem_cons_self, rfl, hm⟩
  | some found =>
    rw [lexemeAt?, hmatch] at h
    obtain rfl := Option.some.inj h
    obtain ⟨⟨t, ht, hkind, hlength⟩, -⟩ := longestMatch?_eq_some hmatch
    exact ⟨t, List.mem_append_left _ ht, hkind, hlength⟩

/-- A lexeme is a part of the text, and not empty. -/
theorem lexemeAt?_le {kind : TokenKind}
    (h : lexemeAt? locale.regularTerminals text = some (kind, n)) : 0 < n ∧ n ≤ text.length := by
  obtain ⟨t, ht, -, hlength⟩ := exists_terminal h
  exact locale.length?_le ht hlength

/-- The lexeme at the beginning of a text is a front of it. -/
theorem exists_of_lexemeAt? {kind : TokenKind}
    (h : lexemeAt? locale.regularTerminals text = some (kind, n)) :
    ∃ image back, text = image ++ back ∧ image.length = n ∧ image ≠ [] := by
  obtain ⟨hpos, hle⟩ := lexemeAt?_le h
  have hlength : (text.take n).length = n := List.length_take_of_le hle
  exact ⟨_, _, (List.take_append_drop n text).symm, hlength,
    List.ne_nil_of_length_pos (hlength.symm ▸ hpos)⟩

end Bounds

/-! ## Cutting a text -/

/-- A text that is cut into lexemes only. -/
inductive Lexed (locale : Locale) : List Char → List Piece → Prop
  | nil : Lexed locale [] []
  | cons {kind : TokenKind} {image rest : List Char} {pieces : List Piece} : image ≠ [] →
    lexemeAt? locale.regularTerminals (image ++ rest) = some (kind, image.length) →
      Lexed locale rest pieces → Lexed locale (image ++ rest) (.lexeme kind image :: pieces)

/-- Induction on the lexemes of a text, apart by what the lexer does with them. -/
@[elab_as_elim]
theorem Lexed.kind_induction {locale : Locale}
    {motive : ∀ text pieces, Lexed locale text pieces → Prop} (nil : motive [] [] .nil)
    (blanks : ∀ {image rest pieces} (hne : image ≠ [])
      (hlexeme : lexemeAt? locale.regularTerminals (image ++ rest) = some (.blanks, image.length))
      (h : Lexed locale rest pieces), motive rest pieces h → motive _ _ (.cons hne hlexeme h))
    (comment : ∀ {image rest pieces} (hne : image ≠ [])
      (hlexeme : lexemeAt? locale.regularTerminals (image ++ rest) = some (.comment, image.length))
      (h : Lexed locale rest pieces), motive rest pieces h → motive _ _ (.cons hne hlexeme h))
    (lineEnd : ∀ {image rest pieces} (hne : image ≠ [])
      (hlexeme : lexemeAt? locale.regularTerminals (image ++ rest) = some (.lineEnd, image.length))
      (h : Lexed locale rest pieces), motive rest pieces h → motive _ _ (.cons hne hlexeme h))
    (word : ∀ {kind image rest pieces} (hne : image ≠ [])
      (hlexeme : lexemeAt? locale.regularTerminals (image ++ rest) = some (kind, image.length))
      (h : Lexed locale rest pieces), kind ≠ .lineEnd → kind ≠ .blanks → kind ≠ .comment →
        motive rest pieces h → motive _ _ (.cons hne hlexeme h))
    {text : List Char} {pieces : List Piece} (h : Lexed locale text pieces) :
    motive text pieces h := by
  induction h with
  | nil => exact nil
  | @cons kind image rest pieces hne hlexeme h ih =>
    by_cases hend : kind = .lineEnd
    · subst hend
      exact lineEnd hne hlexeme h ih
    by_cases hblanks : kind = .blanks
    · subst hblanks
      exact blanks hne hlexeme h ih
    by_cases hcomment : kind = .comment
    · subst hcomment
      exact comment hne hlexeme h ih
    · exact word hne hlexeme h hend hblanks hcomment ih

section Cut

variable {locale : Locale} {kind : TokenKind} {image rest : List Char}

/-- A lexeme is cut off the front of a text. -/
theorem cut_append
    (h : lexemeAt? locale.regularTerminals (image ++ rest) = some (kind, image.length)) :
    cut locale.regularTerminals (image ++ rest) =
      .lexeme kind image :: cut locale.regularTerminals rest := by
  cases image with
  | nil => exact absurd (lexemeAt?_le h).1 (Nat.lt_irrefl 0)
  | cons c image =>
    rw [List.cons_append] at h ⊢
    rw [cut, h]
    dsimp only
    rw [List.length_cons, Nat.add_sub_cancel, List.take_left, List.drop_left]

theorem cut_nil (terminals : List Terminal) : cut terminals [] = [] := by
  rw [cut]

theorem cut_none {terminals : List Terminal} {c : Char}
    (h : lexemeAt? terminals (c :: rest) = none) :
    cut terminals (c :: rest) = consStray c (cut terminals rest) := by
  rw [cut, h]

/-- Induction on how a text is cut: after a lexeme, and after a character that begins none. -/
@[elab_as_elim]
theorem cut_induction (locale : Locale) {motive : List Char → Prop} (nil : motive [])
    (stray : ∀ c rest, lexemeAt? locale.regularTerminals (c :: rest) = none → motive rest →
      motive (c :: rest))
    (lexeme : ∀ kind image rest, image ≠ [] →
      lexemeAt? locale.regularTerminals (image ++ rest) = some (kind, image.length) → motive rest →
        motive (image ++ rest))
    (text : List Char) : motive text := by
  induction hn : text.length using Nat.strongRecOn generalizing text with
  | ind n ih =>
    cases text with
    | nil => exact nil
    | cons c rest =>
      cases hlexeme : lexemeAt? locale.regularTerminals (c :: rest) with
      | none => exact stray c rest hlexeme (ih rest.length (hn ▸ Nat.lt_succ_self _) rest rfl)
      | some found =>
        obtain ⟨kind, n⟩ := found
        obtain ⟨image, back, htext, rfl, hne⟩ := exists_of_lexemeAt? hlexeme
        have hpos := List.length_pos_iff.2 hne
        rw [htext] at hlexeme hn ⊢
        rw [List.length_append] at hn
        exact lexeme kind image back hne hlexeme (ih back.length (by omega) back rfl)

/-- Whether a piece is a lexeme. -/
def Piece.isLexeme : Piece → Bool
  | .lexeme .. => true
  | .stray _ => false

theorem isLexeme_consStray (c : Char) (pieces : List Piece) :
    ∃ image more, consStray c pieces = .stray (c :: image) :: more := by
  rw [consStray.eq_def]
  split
  · exact ⟨_, _, rfl⟩
  · exact ⟨_, _, rfl⟩

/-- A text is cut into its lexemes if nothing in it is stray. -/
theorem lexed_cut (text : List Char)
    (h : ∀ piece ∈ cut locale.regularTerminals text, piece.isLexeme) :
    Lexed locale text (cut locale.regularTerminals text) := by
  induction text using cut_induction locale with
  | nil =>
    rw [cut_nil]
    exact .nil
  | stray c rest hnone _ =>
    obtain ⟨image, more, hstray⟩ := isLexeme_consStray c (cut locale.regularTerminals rest)
    rw [cut_none hnone, hstray] at h
    exact Bool.noConfusion (h _ List.mem_cons_self)
  | lexeme kind image rest hne hlexeme ih =>
    rw [cut_append hlexeme] at h ⊢
    exact .cons hne hlexeme (ih fun piece hpiece => h piece (List.mem_cons_of_mem _ hpiece))

/-- A lexeme that is neither a word nor free text is what the terminal of its kind matches. -/
theorem length?_of_lexemeAt? {n : Nat} {text : List Char} {t : Terminal} (ht : t ∈ Terminal.shared)
    (h : lexemeAt? locale.regularTerminals text = some (t.kind, n)) :
    longestMatch? locale.regularTerminals text = some (t.kind, n) ∧
      t.shape.length? text = some n := by
  have hkinds : ∀ t ∈ Terminal.shared, t.kind ≠ .freeText ∧ t.kind.isWord = false := by decide
  cases hmatch : longestMatch? locale.regularTerminals text with
  | none =>
    rw [Locale.lexemeAt?_of_none hmatch] at h
    obtain ⟨m, -, heq⟩ := Option.map_eq_some_iff.1 h
    exact absurd (Prod.mk.inj heq).1.symm (hkinds t ht).1
  | some found =>
    rw [lexemeAt?, hmatch] at h
    obtain rfl := Option.some.inj h
    obtain ⟨⟨u, hu, hkind, hlength⟩, -⟩ := longestMatch?_eq_some hmatch
    rcases Locale.mem_regularTerminals.1 hu with hu | hu
    · exact ⟨rfl, Terminal.eq_of_kind_eq hu ht hkind ▸ hlength⟩
    · have := (hkinds t ht).2
      rcases Locale.kind_of_mem hu with ⟨k, hk⟩ | ⟨k, hk⟩ <;> rw [← hkind, hk] at this <;>
        exact Bool.noConfusion this

/-- Whether a character may stand between two words of a line. -/
def isInnerBlank (c : Char) : Bool :=
  isBlank c && !Shape.isBreak c

/-- The longest part of a text that has a property is told by its length. -/
theorem of_length_takeWhile {p : Char → Bool} {text rest : List Char}
    (h : ((text ++ rest).takeWhile p).length = text.length) :
    (∀ c ∈ text, p c = true) ∧ ∀ c ∈ rest.head?, p c = false := by
  have hsplit := List.takeWhile_append_dropWhile (p := p) (l := text ++ rest)
  obtain ⟨htext, hrest⟩ := List.append_inj hsplit h
  refine ⟨fun c hc => ?_, fun c hc => ?_⟩
  · rw [← htext] at hc
    exact List.all_eq_true.1 List.all_takeWhile c hc
  · have := List.head?_dropWhile_not p (text ++ rest)
    rwa [hrest, Option.mem_def.1 hc] at this

theorem isInnerBlank_of_blanks
    (h : lexemeAt? locale.regularTerminals (image ++ rest) = some (.blanks, image.length)) :
    ∀ b ∈ image, isInnerBlank b = true := by
  have hmem : (⟨.blanks, .blanks⟩ : Terminal) ∈ Terminal.shared := by simp [Terminal.shared]
  have hlength := (length?_of_lexemeAt? hmem h).2
  exact (of_length_takeWhile (nonempty_eq_some_iff.1 hlength).1).1

/-- A comment goes on to the end of its line. -/
theorem exists_of_comment
    (h : lexemeAt? locale.regularTerminals (image ++ rest) = some (.comment, image.length)) :
    ∃ text, image = '/' :: '/' :: text ∧ (∀ c ∈ text, Shape.isBreak c = false) ∧
      ∀ c ∈ rest.head?, Shape.isBreak c = true := by
  have hmem : (⟨.comment, .comment⟩ : Terminal) ∈ Terminal.shared := by simp [Terminal.shared]
  have hlength : Shape.commentLength? (image ++ rest) = some image.length :=
    (length?_of_lexemeAt? hmem h).2
  rw [Shape.commentLength?.eq_def] at hlength
  split at hlength
  · next tail htext =>
    have hlength := Option.some.inj hlength
    obtain ⟨c, image, rfl⟩ := List.exists_cons_of_length_pos (l := image) (by omega)
    obtain ⟨d, image, rfl⟩ :=
      List.exists_cons_of_length_pos (l := image) (by simp at hlength; omega)
    obtain ⟨rfl, htail⟩ := List.cons.inj htext
    obtain ⟨rfl, rfl⟩ := List.cons.inj htail
    have htake : ((image ++ rest).takeWhile (!Shape.isBreak ·)).length = image.length := by
      simp at hlength
      omega
    obtain ⟨htext, hrest⟩ := of_length_takeWhile htake
    exact ⟨image, rfl, fun c hc => by simpa using htext c hc, fun c hc => by simpa using hrest c hc⟩
  · cases hlength

theorem isLetter_of_lineEnd
    (h : lexemeAt? locale.regularTerminals (image ++ rest) = some (.lineEnd, image.length)) :
    (image ++ rest).head?.any isLetter = false := by
  have hmem : (⟨.lineEnd, .lineEnd⟩ : Terminal) ∈ Terminal.shared := by simp [Terminal.shared]
  obtain ⟨c, tail, htext, hbegins⟩ :=
    Terminal.exists_cons_of_length? hmem (length?_of_lexemeAt? hmem h).2
  rw [htext]
  exact Terminal.isLetter_of_begins hmem hbegins

/-- A lexeme that begins with a line break is a line end. -/
theorem kind_of_isBreak {c : Char} {n : Nat} (hc : Shape.isBreak c)
    (h : lexemeAt? locale.regularTerminals (c :: rest) = some (kind, n)) : kind = .lineEnd := by
  have hbreak : c = '\r' ∨ c = '\n' := by simpa [Shape.isBreak] using hc
  obtain ⟨t, ht, rfl, hlength⟩ := exists_terminal h
  have hbegins := Shape.begins_of_length? hlength
  rcases Locale.mem_terminals.1 ht with ht | ht | rfl
  · have hall : ∀ t ∈ Terminal.shared, ∀ c ∈ ['\r', '\n'], t.shape.begins c →
        t.kind = .lineEnd := by
      decide
    exact hall t ht c (by simpa using hbreak) hbegins
  · have hblank : isBlank c := by rcases hbreak with rfl | rfl <;> decide
    rw [Locale.wordTerminals_eq_none (isUnread_of_isBlank hblank) rest t ht] at hlength
    cases hlength
  · exact absurd hbegins (by rcases hbreak with rfl | rfl <;> decide)

end Cut

/-! ## Lines of tokens -/

/-- The words of a line at the front of a text: each is the lexeme at its place, there are blanks
    between them, and no letter comes after the last one. -/
inductive Written (locale : Locale) : List Token → List Char → Prop
  | last {t : Token} {rest : List Char} :
    lexemeAt? locale.regularTerminals (t.chars ++ rest) = some (t.kind, t.chars.length) →
      rest.head?.any isLetter = false → Written locale [t] (t.chars ++ rest)
  | cons {t u : Token} {words : List Token} {blanks rest : List Char} :
    lexemeAt? locale.regularTerminals (t.chars ++ (blanks ++ rest)) =
      some (t.kind, t.chars.length) →
      (∀ b ∈ blanks, isInnerBlank b) → Written locale (u :: words) rest →
        Written locale (t :: u :: words) (t.chars ++ (blanks ++ rest))

/-- Tokens of which those that make up a line with a line end were written in it. -/
inductive Scanned (locale : Locale) : List Token → Prop
  | open_line {words : List Token} : (∀ t ∈ words, t.kind ≠ .lineEnd) → Scanned locale words
  | line {words tokens : List Token} {e : Token} : (∀ t ∈ words, t.kind ≠ .lineEnd) →
    (words ≠ [] → ∃ text, Written locale words text) → e.kind = .lineEnd → Scanned locale tokens →
      Scanned locale (words ++ e :: tokens)

/-- The rest of a line, and what comes after it. -/
inductive LineRest (locale : Locale) : List Char → List Token → Prop
  | open_line {text : List Char} {words : List Token} : (∀ t ∈ words, t.kind ≠ .lineEnd) →
    LineRest locale text words
  | empty {text : List Char} {tokens : List Token} {e : Token} : text.head?.any isLetter = false →
    e.kind = .lineEnd → Scanned locale tokens → LineRest locale text (e :: tokens)
  | words {blanks rest : List Char} {u : Token} {words tokens : List Token} {e : Token} :
    (∀ t ∈ u :: words, t.kind ≠ .lineEnd) → (∀ b ∈ blanks, isInnerBlank b) →
      Written locale (u :: words) rest → e.kind = .lineEnd → Scanned locale tokens →
        LineRest locale (blanks ++ rest) (u :: words ++ e :: tokens)

namespace LineRest

variable {locale : Locale} {text : List Char} {tokens : List Token}

/-- The rest of a line that begins with a word. -/
theorem of_written {rest : List Char} {u : Token} {words : List Token} {e : Token}
    (hwords : ∀ t ∈ u :: words, t.kind ≠ .lineEnd) (hwritten : Written locale (u :: words) rest)
    (he : e.kind = .lineEnd) (htokens : Scanned locale tokens) :
    LineRest locale rest (u :: words ++ e :: tokens) := by
  have hnone : ∀ b ∈ ([] : List Char), isInnerBlank b := fun _ h => absurd h List.not_mem_nil
  have h : LineRest locale ([] ++ rest) (u :: words ++ e :: tokens) :=
    .words hwords hnone hwritten he htokens
  exact h

/-- Another word in front. -/
theorem cons (h : LineRest locale text tokens) {t : Token} (ht : t.kind ≠ .lineEnd)
    (hlexeme : lexemeAt? locale.regularTerminals (t.chars ++ text) =
      some (t.kind, t.chars.length)) :
    LineRest locale (t.chars ++ text) (t :: tokens) ∧ Scanned locale (t :: tokens) := by
  have hall : ∀ {words : List Token}, (∀ u ∈ words, u.kind ≠ .lineEnd) →
      ∀ u ∈ t :: words, u.kind ≠ .lineEnd := fun hwords => List.forall_mem_cons.2 ⟨ht, hwords⟩
  cases h with
  | open_line hwords => exact ⟨.open_line (hall hwords), .open_line (hall hwords)⟩
  | empty hletter he htokens =>
    have hwords := hall fun _ h => absurd h List.not_mem_nil
    have hwritten := Written.last hlexeme hletter
    exact ⟨.of_written hwords hwritten he htokens,
      .line hwords (fun _ => ⟨_, hwritten⟩) he htokens⟩
  | words hwords hblanks hwritten he htokens =>
    have hwritten' := Written.cons hlexeme hblanks hwritten
    exact ⟨.of_written (hall hwords) hwritten' he htokens,
      .line (hall hwords) (fun _ => ⟨_, hwritten'⟩) he htokens⟩

/-- Blanks in front. -/
theorem blanks (h : LineRest locale text tokens) {more : List Char}
    (hmore : ∀ b ∈ more, isInnerBlank b) : LineRest locale (more ++ text) tokens := by
  cases h with
  | open_line hwords => exact .open_line hwords
  | empty hletter he htokens =>
    refine .empty ?_ he htokens
    cases more with
    | nil => exact hletter
    | cons b more =>
      have := hmore b List.mem_cons_self
      exact isLetter_of_isBlank (Bool.and_eq_true_iff.1 this).1
  | words hwords hblanks hwritten he htokens =>
    rw [← List.append_assoc]
    exact .words hwords (List.forall_mem_append.2 ⟨hmore, hblanks⟩) hwritten he htokens

/-- A line end in front of what is left of a line is what is left of it. -/
theorem of_lineEnd {e : Token} (h : LineRest locale text (e :: tokens)) (he : e.kind = .lineEnd)
    (other : List Char) (hother : other.head?.any isLetter = false) :
    LineRest locale other (e :: tokens) := by
  generalize hall : e :: tokens = all at h
  cases h with
  | open_line hwords => exact absurd he (hwords e (hall ▸ List.mem_cons_self))
  | empty _ he' htokens => exact .empty hother he' htokens
  | words hwords =>
    obtain ⟨rfl, -⟩ := List.cons.inj hall
    exact absurd he (hwords e List.mem_cons_self)

end LineRest

namespace Lexing

variable {locale : Locale} {text : List Char} {pieces : List Piece}

/-- How the tokens of a text stand in lines, by the state that their line is in before them: it is a
    new one, or only its line end is still to come, or there are words on it already. -/
structure IsScanned (locale : Locale) (text : List Char) (located : List (Piece × Range)) :
    Prop where
  fresh : Scanned locale (sift .fresh located).tokens
  commented : (∀ c ∈ text.head?, Shape.isBreak c) →
    Scanned locale (sift ⟨false, true⟩ located).tokens
  begun : LineRest locale text (sift ⟨true, false⟩ located).tokens

namespace IsScanned

variable {located : List (Piece × Range)} {image : List Char} {range : Range}

theorem nil : IsScanned locale [] [] where
  fresh := .open_line fun _ h => absurd h List.not_mem_nil
  commented _ := .open_line fun _ h => absurd h List.not_mem_nil
  begun := .open_line fun _ h => absurd h List.not_mem_nil

theorem blanks (h : IsScanned locale text located) (hne : image ≠ [])
    (hlexeme : lexemeAt? locale.regularTerminals (image ++ text) = some (.blanks, image.length)) :
    IsScanned locale (image ++ text) ((.lexeme .blanks image, range) :: located) where
  fresh := h.fresh
  commented hbreak := by
    obtain ⟨b, image, rfl⟩ := List.exists_cons_of_ne_nil hne
    have hinner := isInnerBlank_of_blanks hlexeme b List.mem_cons_self
    rw [isInnerBlank, hbreak b rfl, Bool.not_true, Bool.and_false] at hinner
    exact Bool.noConfusion hinner
  begun := h.begun.blanks (isInnerBlank_of_blanks hlexeme)

theorem lineEnd (h : IsScanned locale text located)
    (hlexeme : lexemeAt? locale.regularTerminals (image ++ text) = some (.lineEnd, image.length)) :
    IsScanned locale (image ++ text) ((.lexeme .lineEnd image, range) :: located) where
  fresh := by
    have hline : Scanned locale ([] ++ ⟨.lineEnd, String.ofList image, range⟩ ::
        (sift .fresh located).tokens) :=
      .line (fun _ h => absurd h List.not_mem_nil) (fun h => absurd rfl h) rfl h.fresh
    exact hline
  commented _ := h.fresh
  begun := .empty (isLetter_of_lineEnd hlexeme) rfl h.fresh

/-- A comment goes on to the end of its line, so what is left of the line is its line end. -/
theorem comment (hlexed : Lexed locale text pieces) {offset : Nat} {position : Position}
    (h : IsScanned locale text (locate offset position pieces))
    (hlexeme : lexemeAt? locale.regularTerminals (image ++ text) = some (.comment, image.length)) :
    IsScanned locale (image ++ text)
      ((.lexeme .comment image, range) :: locate offset position pieces) := by
  obtain ⟨tail, rfl, -, hbreak⟩ := exists_of_comment hlexeme
  refine ⟨h.commented hbreak, fun h => absurd (h '/' rfl) (by decide), ?_⟩
  cases hlexed with
  | nil => exact .open_line fun _ h => absurd h List.not_mem_nil
  | @cons kind' image' rest' pieces' hne' hlexeme' h' =>
    obtain ⟨c, image', rfl⟩ := List.exists_cons_of_ne_nil hne'
    obtain rfl := kind_of_isBreak (hbreak c rfl) hlexeme'
    exact h.begun.of_lineEnd rfl _ (show isLetter '/' = false by decide)

/-- A token of the grammar that is no line end. -/
theorem word (h : IsScanned locale text located) {kind : TokenKind} (hne : image ≠ [])
    (hlexeme : lexemeAt? locale.regularTerminals (image ++ text) = some (kind, image.length))
    (hkind : kind ≠ .blanks) (hcomment : kind ≠ .comment) (hend : kind ≠ .lineEnd) :
    IsScanned locale (image ++ text) ((.lexeme kind image, range) :: located) := by
  have htoken : ∀ line, (sift line ((.lexeme kind image, range) :: located)).tokens =
      ⟨kind, String.ofList image, range⟩ ::
        (sift { line with hasTokens := true } located).tokens := by
    intro line
    cases kind <;> first | rfl | contradiction
  have hchars : (⟨kind, String.ofList image, range⟩ : Token).chars = image := String.toList_ofList
  obtain ⟨hrest, hscanned⟩ := h.begun.cons (t := ⟨kind, String.ofList image, range⟩) hend
    (by rwa [hchars])
  rw [hchars] at hrest
  refine ⟨(htoken _).symm ▸ hscanned, fun hbreak => ?_, (htoken _).symm ▸ hrest⟩
  -- a word is no line end, so it cannot be what comes after a comment
  obtain ⟨c, image, himage⟩ := List.exists_cons_of_ne_nil hne
  rw [himage, List.cons_append] at hbreak hlexeme
  exact absurd (kind_of_isBreak (hbreak c rfl) hlexeme) hend

end IsScanned

/-- The tokens of a text that is cut into lexemes stand in lines that were written. -/
theorem scanned_of_lexed (h : Lexed locale text pieces) (offset : Nat) (position : Position) :
    IsScanned locale text (locate offset position pieces) := by
  induction h using Lexed.kind_induction generalizing offset position with
  | nil => exact .nil
  | blanks hne hlexeme _ ih => exact (ih _ _).blanks hne hlexeme
  | comment _ hlexeme h ih => exact .comment h (ih _ _) hlexeme
  | lineEnd _ hlexeme _ ih => exact (ih _ _).lineEnd hlexeme
  | word hne hlexeme _ hend hblanks hcomment ih =>
    exact (ih _ _).word hne hlexeme hblanks hcomment hend

/-- If nothing is wrong with a text, nothing in it is stray. -/
theorem isLexeme_of_errors_eq_nil (hne : ∀ piece ∈ pieces, piece.image ≠ []) (line : LineState)
    (offset : Nat) (position : Position)
    (h : (sift line (locate offset position pieces)).errors = []) :
    ∀ piece ∈ pieces, piece.isLexeme := by
  induction pieces generalizing line offset position with
  | nil => exact fun _ h => absurd h List.not_mem_nil
  | cons piece pieces ih =>
    obtain ⟨hpiece, hpieces⟩ := List.forall_mem_cons.1 hne
    rw [locate] at h
    -- a stray piece with something in it is reported
    cases piece with
    | stray image =>
      cases image with
      | nil => exact absurd rfl hpiece
      | cons c image => cases h
    | lexeme kind image =>
      refine List.forall_mem_cons.2 ⟨rfl, ?_⟩
      cases kind with
      | lineEnd =>
        rw [sift] at h
        split at h
        · exact ih hpieces _ _ _ h
        · exact ih hpieces _ _ _ h
      | _ => exact ih hpieces _ _ _ h

/-- The comments of a text that is cut into lexemes are two slashes and no line break. -/
theorem forall_mem_comments (h : Lexed locale text pieces) (line : LineState) (offset : Nat)
    (position : Position) : ∀ c ∈ (sift line (locate offset position pieces)).comments,
      c.kind = .comment ∧ ∃ text, c.chars = '/' :: '/' :: text ∧
      ∀ d ∈ text, Shape.isBreak d = false := by
  induction h generalizing line offset position with
  | nil => exact fun _ h => absurd h List.not_mem_nil
  | @cons kind image rest pieces hne hlexeme h ih =>
    rw [locate]
    cases kind with
    | comment =>
      obtain ⟨text, rfl, htext, -⟩ := exists_of_comment hlexeme
      refine List.forall_mem_cons.2 ⟨⟨rfl, text, ?_, htext⟩, ih _ _ _⟩
      rw [Token.chars, String.toList_ofList]
    | lineEnd =>
      rw [sift]
      split
      · exact ih _ _ _
      · exact ih _ _ _
    | _ => exact ih _ _ _

/-- A text with which nothing is wrong is cut into lexemes. -/
theorem lexed_of_errors_eq_nil (h : (ofText locale text).errors = []) :
    Lexed locale text (locale.pieces text) :=
  lexed_cut text (isLexeme_of_errors_eq_nil
    (image_ne_nil_of_mem_cut locale.regularTerminals text) _ _ _ h)

end Lexing

end Wireframe
