import Wireframe.Proofs.Detection
import Wireframe.Proofs.Row.Lines
import Wireframe.Proofs.Token.Names

/-!
# Words read back from a printed line

A printed line has the words of a line of the source, keywords squeezed and all others
trimmed, with single spaces between them (`lineChars`). It is cut into these words again
(`Written.cut_lineChars`), if each pair of neighbours stays apart (`StaysApart`) and no
free text ends in a slash.

A text in delimiters takes all that it can of its line. So the induction along the line carries that
nothing can close in the rest of the printed line where nothing could in the rest of the source.
-/

namespace Wireframe

open Text

/-! ## What a line shows -/

namespace Token

/-- The characters that a printed line shows of a token. -/
def shown (t : Token) : List Char :=
  if t.kind.isWord then squeeze t.chars else trim t.chars

end Token

/-- The characters of a printed line: words with single spaces between them, but none before a
    comma. -/
def lineChars : List Token → List Char
  | [] => []
  | [t] => t.shown
  | t :: u :: words =>
    t.shown ++ ((if u.kind = .comma then [] else [' ']) ++ lineChars (u :: words))

/-- The pieces of a printed line. -/
def linePieces : List Token → List Piece
  | [] => []
  | [t] => [.lexeme t.kind t.shown]
  | t :: u :: words =>
    .lexeme t.kind t.shown ::
      ((if u.kind = .comma then [] else [.lexeme .blanks [' ']]) ++ linePieces (u :: words))

/-! ## Literals -/

namespace TokenKind

/-- Whether a literal of a kind can begin with a character. -/
def opens : TokenKind → Char → Bool
  | quotation, c => Shape.isQuotationMark c
  | placeholder, c => c = '<'
  | _, _ => false

/-- Whether a literal of a kind can end with a character. -/
def closes : TokenKind → Char → Bool
  | quotation, c => Shape.isQuotationMark c
  | placeholder, c => c = '>'
  | _, _ => false

end TokenKind

/-- Characters that can close or end a text in delimiters, or escape the next one. -/
def delimiters : List Char :=
  ['\\', '\r', '\n', '"', '«', '»', '>']

section Literals

variable {locale : Locale} {kind : TokenKind} {image rest body : List Char} {c : Char}

theorem TokenKind.mem_of_closes (h : kind.closes c) : c ∈ ['"', '«', '»', '>'] := by
  cases kind with
  | quotation =>
    simp only [closes, Shape.isQuotationMark, Bool.or_eq_true, decide_eq_true_eq] at h
    rcases h with (rfl | rfl) | rfl <;> decide
  | placeholder =>
    simp only [closes, decide_eq_true_eq] at h
    subst h
    decide
  | _ => exact Bool.noConfusion h

theorem TokenKind.closes_mem (h : kind.closes c) : c ∈ delimiters := by
  have hall : ∀ d ∈ ['"', '«', '»', '>'], d ∈ delimiters := by decide
  exact hall c (mem_of_closes h)

/-- A literal is a delimiter and a text that is closed at last. -/
theorem exists_of_literal (hkind : kind.startsLiteral)
    (h : lexemeAt? locale.regularTerminals (image ++ rest) = some (kind, image.length)) :
    ∃ c body, image = c :: body ∧ kind.opens c ∧
      Shape.closingLength? kind.closes (body ++ rest) = some body.length := by
  have hpos := (lexemeAt?_le h).1
  obtain ⟨c, body, rfl⟩ := List.exists_cons_of_length_pos hpos
  refine ⟨c, body, rfl, ?_⟩
  cases kind with
  | quotation =>
    have hlength := (length?_of_lexemeAt? (t := ⟨.quotation, .quotation⟩)
      (by simp [Terminal.shared]) h).2
    rw [List.cons_append, Shape.length?, Shape.quotationLength?] at hlength
    split at hlength
    · next hmark =>
      obtain ⟨k, hk, hsum⟩ := Option.map_eq_some_iff.1 hlength
      obtain rfl : k = body.length := by simpa [Nat.add_comm] using hsum
      exact ⟨hmark, hk⟩
    · cases hlength
  | placeholder =>
    have hlength := (length?_of_lexemeAt? (t := ⟨.placeholder, .placeholder⟩)
      (by simp [Terminal.shared]) h).2
    rw [List.cons_append, Shape.length?, Shape.placeholderLength?.eq_def] at hlength
    split at hlength
    · next heq =>
      obtain ⟨rfl, rfl⟩ := List.cons.inj heq
      obtain ⟨k, hk, hsum⟩ := Option.map_eq_some_iff.1 hlength
      obtain rfl : k = body.length := by simpa [Nat.add_comm] using hsum
      exact ⟨rfl, hk⟩
    · cases hlength
  | _ => exact Bool.noConfusion hkind

theorem lexemeAt?_literal (hkind : kind.startsLiteral) (hopens : kind.opens c)
    (h : Shape.closingLength? kind.closes (body ++ rest) = some body.length) :
    lexemeAt? locale.regularTerminals (c :: body ++ rest) = some (kind, (c :: body).length) := by
  cases kind with
  | quotation =>
    have hmark : Shape.isQuotationMark c = true := hopens
    rw [List.cons_append, lexemeAt?, longestMatch?_quotationMark hmark, Shape.quotationLength?,
      if_pos hmark, show Shape.closingLength? Shape.isQuotationMark (body ++ rest) = _ from h]
    exact congrArg (fun n => some (TokenKind.quotation, n)) (Nat.add_comm ..)
  | placeholder =>
    obtain rfl : c = '<' := of_decide_eq_true hopens
    rw [List.cons_append, lexemeAt?, longestMatch?_angle, Shape.placeholderLength?,
      show Shape.closingLength? (· = '>') (body ++ rest) = _ from h]
    exact congrArg (fun n => some (TokenKind.placeholder, n)) (Nat.add_comm ..)
  | _ => exact Bool.noConfusion hkind

theorem isUnread_of_opens (h : kind.opens c) :
    IsUnread c ∧ isBlank c = false ∧ c ≠ '?' ∧ c ≠ '\\' ∧ Shape.isBreak c = false := by
  have hall : ∀ d ∈ ['"', '«', '»', '<'],
      (isLetter d = false ∧ d ≠ ':') ∧ isBlank d = false ∧ d ≠ '?' ∧ d ≠ '\\' ∧
        Shape.isBreak d = false := by
    decide
  refine hall c ?_
  cases kind with
  | quotation => simpa [TokenKind.opens, Shape.isQuotationMark, or_assoc] using Or.inl h
  | placeholder =>
    obtain rfl : c = '<' := of_decide_eq_true h
    decide
  | _ => exact Bool.noConfusion h

/-- Characters that are no delimiters do not matter to what can close. -/
theorem closingLength?_append_quiet {closes : Char → Bool}
    (hcloses : ∀ c, closes c → c ∈ delimiters) (hbody : ∀ c ∈ body, c ∉ delimiters) :
    Shape.closingLength? closes (body ++ rest) = none ↔
      Shape.closingLength? closes rest = none := by
  refine closingLength?_append_neutral fun c hc => ?_
  have hnot := hbody c hc
  have hcloses := mt (hcloses c) hnot
  simp only [delimiters, List.mem_cons, List.not_mem_nil, or_false, not_or] at hnot
  exact ⟨hnot.1, by simp [Shape.isBreak, hnot], hnot.2.2.2.1, Bool.not_eq_true _ ▸ hcloses⟩

end Literals

/-! ## Words, numbers and free text -/

namespace Token

theorem IsPrinted.kind_cases {t : Token} (h : t.IsPrinted) : t.kind.isWord ∨ t.kind.startsLiteral ∨
    t.kind = .number ∧ t.count?.isSome ∨ t.kind = .comma ∨ t.kind = .freeText := by
  have hkind := h.kind
  cases hk : t.kind with
  | keyword | numeral => exact .inl rfl
  | quotation | placeholder => exact .inr (.inl rfl)
  | number => exact .inr (.inr (.inl ⟨rfl, h.number hk⟩))
  | comma => exact .inr (.inr (.inr (.inl rfl)))
  | freeText => exact .inr (.inr (.inr (.inr rfl)))
  | _ => rw [hk] at hkind; exact Bool.noConfusion hkind

/-- A token that does not lose its last character when a line ends with it: free text that ends in a
    slash would. -/
def KeepsEnd (t : Token) : Prop :=
  t.kind = .freeText → t.shown.getLast? ≠ some '/'

end Token

section Shown

variable {locale : Locale} {t u : Token} {rest after : List Char}

theorem notMem_delimiters_of_isFree {c : Char} (h : Shape.isFree c ∨ c = '/') : c ∉ delimiters := by
  have hall : ∀ d ∈ delimiters, Shape.isFree d = false ∧ d ≠ '/' := by decide
  rcases h with h | rfl
  · exact fun hc => by rw [(hall c hc).1] at h; exact Bool.noConfusion h
  · decide

theorem notMem_delimiters_of_read {c : Char} (h : isGap c ∨ ¬IsUnread c) : c ∉ delimiters := by
  have hall : ∀ d ∈ delimiters, isGap d = false ∧ isLetter d = false ∧ d ≠ ':' := by decide
  intro hc
  obtain ⟨hgap, hunread⟩ := hall c hc
  rcases h with h | h
  · rw [hgap] at h
    exact Bool.noConfusion h
  · exact h hunread

theorem notMem_delimiters_of_isInnerBlank {c : Char} (h : isInnerBlank c) : c ∉ delimiters := by
  have hall : ∀ d ∈ delimiters, isInnerBlank d = false := by decide
  intro hc
  rw [hall c hc] at h
  exact Bool.noConfusion h

/-- The digits of a number that can be used as a count. -/
theorem mem_digits_of_number (h : lexemeAt? locale.regularTerminals (t.chars ++ rest) =
    some (.number, t.chars.length)) (hkind : t.kind = .number) (hcount : t.count?.isSome) :
    (∀ c ∈ t.chars, c ∈ digits) ∧ Shape.numberLength (t.chars ++ rest) = t.chars.length := by
  have hlength := (length?_of_lexemeAt? (t := ⟨.number, .number⟩) (by simp [Terminal.shared]) h).2
  have hlength := (nonempty_eq_some_iff.1 hlength).1
  refine ⟨?_, hlength⟩
  obtain ⟨c, image, hchars⟩ := List.exists_cons_of_length_pos (lexemeAt?_le h).1
  rw [hchars] at hlength ⊢
  -- a sign in front is no part of a number
  have hplus : c ≠ '+' := by
    rintro rfl
    rw [List.cons_append, numberLength_eq] at hlength
    cases hlength
  rw [Token.count?, hkind] at hcount
  change (smallNumber? t.chars).isSome at hcount
  rw [hchars, smallNumber?.eq_def] at hcount
  split at hcount
  · next heq => exact absurd (List.cons.inj heq).1 hplus
  refine fun d hd => ?_
  have hdigits : (c :: image).all Char.isDigit := by
    simp only [Bool.or_eq_true, Bool.not_eq_true'] at hcount
    grind
  have := List.all_eq_true.1 hdigits d hd
  simp only [Char.isDigit, Bool.and_eq_true, decide_eq_true_eq] at this
  exact mem_digits this.1 this.2

/-- A text that neither begins nor ends with a blank is shown as it is. -/
theorem shown_eq_chars (hword : t.kind.isWord = false)
    (hfirst : ∀ c ∈ t.chars.head?, isBlank c = false)
    (hlast : ∀ c ∈ t.chars.getLast?, isBlank c = false) : t.shown = t.chars := by
  rw [Token.shown, hword, if_neg Bool.false_ne_true, trim_eq_self hfirst hlast]

theorem isBlank_of_mem_digits {c : Char} (h : c ∈ digits) :
    IsUnread c ∧ isBlank c = false ∧ c ∉ delimiters ∧ c ≠ '?' := by
  have hall : ∀ d ∈ digits, (isLetter d = false ∧ d ≠ ':') ∧ isBlank d = false ∧ d ∉ delimiters ∧
      d ≠ '?' := by
    decide
  exact hall c h

theorem shown_of_number (h : lexemeAt? locale.regularTerminals (t.chars ++ rest) =
    some (t.kind, t.chars.length)) (hkind : t.kind = .number) (hcount : t.count?.isSome) :
    t.shown = t.chars := by
  have hdigits := (mem_digits_of_number (hkind ▸ h) hkind hcount).1
  exact shown_eq_chars (by rw [hkind]; rfl)
    (fun c hc => (isBlank_of_mem_digits (hdigits c (List.mem_of_mem_head? hc))).2.1)
    (fun c hc => (isBlank_of_mem_digits (hdigits c (List.mem_of_mem_getLast? hc))).2.1)

theorem chars_of_comma (h : lexemeAt? locale.regularTerminals (t.chars ++ rest) =
    some (t.kind, t.chars.length)) (hkind : t.kind = .comma) : t.chars = [','] := by
  rw [hkind] at h
  have hlength :=
    (length?_of_lexemeAt? (t := ⟨.comma, .single ','⟩) (by simp [Terminal.shared]) h).2
  obtain ⟨c, image, hchars⟩ := List.exists_cons_of_length_pos (lexemeAt?_le h).1
  rw [hchars] at hlength ⊢
  rw [Shape.length?, List.cons_append, List.head?_cons] at hlength
  split at hlength
  · next heq =>
    have hnil : image = [] := List.length_eq_zero_iff.1 (by simpa using hlength)
    rw [Option.some.inj heq, hnil]
  · cases hlength

theorem shown_of_comma (h : lexemeAt? locale.regularTerminals (t.chars ++ rest) =
    some (t.kind, t.chars.length)) (hkind : t.kind = .comma) : t.shown = [','] := by
  rw [Token.shown, hkind, chars_of_comma h hkind]
  decide

theorem Closed.getLast?_cons {closes : Char → Bool} {c : Char} {body : List Char}
    (h : Closed closes body) : ∃ d, (c :: body).getLast? = some d ∧ closes d := by
  obtain ⟨d, hd, hcloses⟩ := h.exists_last
  exact ⟨d, by rw [List.getLast?_cons, hd]; rfl, hcloses⟩

theorem TokenKind.isBlank_of_closes {kind : TokenKind} {c : Char} (h : kind.closes c) :
    isBlank c = false := by
  have hall : ∀ d ∈ ['"', '«', '»', '>'], isBlank d = false := by decide
  exact hall c (mem_of_closes h)

/-- A literal is shown as it is. -/
theorem shown_of_literal (h : lexemeAt? locale.regularTerminals (t.chars ++ rest) =
    some (t.kind, t.chars.length)) (hkind : t.kind.startsLiteral) : t.shown = t.chars := by
  obtain ⟨c, body, hchars, hopens, hclosing⟩ := exists_of_literal hkind h
  obtain ⟨d, hd, hcloses⟩ := (closed_of_closingLength? hclosing).getLast?_cons (c := c)
  refine shown_eq_chars ?_ ?_ ?_
  · cases hk : t.kind <;> rw [hk] at hkind <;> first | rfl | exact Bool.noConfusion hkind
  · rw [hchars]
    exact fun e he => Option.some.inj he ▸ (isUnread_of_opens hopens).2.1
  · rw [hchars, hd]
    exact fun e he => Option.some.inj he ▸ TokenKind.isBlank_of_closes hcloses

/-- Free text is shown as a caption, with spaces after it in the source. -/
theorem exists_caption (h : lexemeAt? locale.regularTerminals (t.chars ++ rest) =
    some (t.kind, t.chars.length)) (hkind : t.kind = .freeText) :
    IsCaption t.shown ∧ (∃ n, t.chars = t.shown ++ List.replicate n ' ') ∧
      longestMatch? locale.regularTerminals (t.chars ++ rest) = none := by
  have hshown : t.shown = trim t.chars := by rw [Token.shown, hkind]; rfl
  rw [hkind] at h
  obtain ⟨hnone, hlength, hne⟩ := Locale.of_lexemeAt?_freeText h
  obtain ⟨hcaption, hspaces⟩ := isCaption_trim (List.ne_nil_of_length_pos (Nat.pos_of_ne_zero hne))
    hnone hlength
  rw [hshown]
  exact ⟨hcaption, hspaces, hnone⟩

/-- A word is spelled by one of its forms. -/
theorem exists_form_of_shown (h : lexemeAt? locale.regularTerminals (t.chars ++ rest) =
    some (t.kind, t.chars.length)) (hword : t.kind.isWord) :
    ∃ u ∈ locale.wordTerminals, ∃ f ∈ u.forms, u.kind = t.kind ∧
      Spelling f.marks t.chars t.shown ∧
      Shape.formLength? f (t.chars ++ rest) = some t.chars.length ∧
      ∃ c front, t.chars = c :: front ∧ isLetter c = true ∧ isBlank c = false := by
  have hshown : t.shown = squeeze t.chars := by rw [Token.shown, hword]; rfl
  rw [hshown]
  exact Locale.exists_form hword (longestMatch?_of_isWord hword h)

/-- What is shown of a token begins with neither a blank nor a question mark. -/
theorem exists_shown_cons (h : lexemeAt? locale.regularTerminals (t.chars ++ rest) =
    some (t.kind, t.chars.length)) (ht : t.IsPrinted) :
    ∃ c more, t.shown = c :: more ∧ isBlank c = false ∧ c ≠ '?' := by
  have hnot : isLetter '?' = false := by decide
  -- words begin with a letter, literals with a delimiter, numbers with a digit
  rcases ht.kind_cases with hword | hliteral | ⟨hk, hcount⟩ | hk | hk
  · obtain ⟨-, -, f, -, -, hspelling, -, c, front, hchars, hletter, hblank⟩ :=
      exists_form_of_shown h hword
    rw [hchars] at hspelling
    obtain ⟨more, hmore⟩ := hspelling.exists_cons hblank
    exact ⟨c, more, hmore, hblank, ne_of_isLetter hletter hnot⟩
  · obtain ⟨c, body, hchars, hopens, -⟩ := exists_of_literal hliteral h
    obtain ⟨-, hblank, hmark, -⟩ := isUnread_of_opens hopens
    exact ⟨c, body, (shown_of_literal h hliteral).trans hchars, hblank, hmark⟩
  · obtain ⟨c, image, hchars⟩ := List.exists_cons_of_length_pos (lexemeAt?_le h).1
    have hdigits := (mem_digits_of_number (hk ▸ h) hk hcount).1 c (by rw [hchars]; simp)
    obtain ⟨-, hblank, -, hmark⟩ := isBlank_of_mem_digits hdigits
    exact ⟨c, image, (shown_of_number h hk hcount).trans hchars, hblank, hmark⟩
  · exact ⟨',', [], shown_of_comma h hk, by decide, by decide⟩
  · obtain ⟨hcaption, -, -⟩ := exists_caption h hk
    obtain ⟨c, more, hmore, hblank, -⟩ := hcaption.first
    obtain ⟨n, hrun⟩ := hcaption.run
    refine ⟨c, more, hmore, hblank, ?_⟩
    rintro rfl
    exact absurd (hrun.mem '?' (by rw [hmore]; simp)) (by decide)

/-- In all but literals there are no delimiters. -/
theorem startsLiteral_or_notMem_delimiters
    (h : lexemeAt? locale.regularTerminals (t.chars ++ rest) = some (t.kind, t.chars.length))
    (ht : t.IsPrinted) : t.kind.startsLiteral ∨
      (∀ c ∈ t.chars, c ∉ delimiters) ∧ ∀ c ∈ t.shown, c ∉ delimiters := by
  rcases ht.kind_cases with hword | hliteral | ⟨hk, hcount⟩ | hk | hk
  · obtain ⟨u, hu, f, hf, -, hspelling, -⟩ := exists_form_of_shown h hword
    have hplain := (WordForm.spaced (Locale.isOrderly_of_mem (Locale.mem_forms hu hf))).plain
    exact .inr ⟨fun c hc => notMem_delimiters_of_read (hspelling.not_unread hplain c hc),
      fun c hc => notMem_delimiters_of_read (hspelling.squeezed_self.not_unread hplain c hc)⟩
  · exact .inl hliteral
  · have hdigits := (mem_digits_of_number (hk ▸ h) hk hcount).1
    have hchars : ∀ c ∈ t.chars, c ∉ delimiters := fun c hc =>
      (isBlank_of_mem_digits (hdigits c hc)).2.2.1
    exact .inr ⟨hchars, shown_of_number h hk hcount ▸ hchars⟩
  · have hcomma : ∀ c ∈ [','], c ∉ delimiters := by decide
    exact .inr ⟨chars_of_comma h hk ▸ hcomma, shown_of_comma h hk ▸ hcomma⟩
  · obtain ⟨hcaption, ⟨n, hchars⟩, -⟩ := exists_caption h hk
    obtain ⟨m, hrun⟩ := hcaption.run
    have hshown : ∀ c ∈ t.shown, c ∉ delimiters := fun c hc =>
      notMem_delimiters_of_isFree (hrun.mem c (List.mem_append_left _ hc))
    refine .inr ⟨hchars ▸ List.forall_mem_append.2 ⟨hshown, fun c hc => ?_⟩, hshown⟩
    exact (List.mem_replicate.1 hc).2 ▸ by decide

/-- Nothing can close in what follows a printed token, if nothing could in the source. -/
theorem closingLength?_shown (h : lexemeAt? locale.regularTerminals (t.chars ++ rest) =
    some (t.kind, t.chars.length)) (ht : t.IsPrinted) {closes : Char → Bool}
    (hcloses : ∀ c, closes c → c ∈ delimiters)
    (hafter : Shape.closingLength? closes rest = none → Shape.closingLength? closes after = none)
    (hnone : Shape.closingLength? closes (t.chars ++ rest) = none) :
    Shape.closingLength? closes (t.shown ++ after) = none := by
  rcases startsLiteral_or_notMem_delimiters h ht with hliteral | ⟨hchars, hshown⟩
  · obtain ⟨c, body, hchars, hopens, hclosing⟩ := exists_of_literal hliteral h
    obtain ⟨-, -, -, hescape, hbreak⟩ := isUnread_of_opens hopens
    have hclosed : Closed t.kind.closes (c :: body) :=
      .plain hescape hbreak (closed_of_closingLength? hclosing)
    rw [shown_of_literal h hliteral, hchars]
    exact hclosed.closingLength?_append_eq_none hafter (hchars ▸ hnone)
  · rw [closingLength?_append_quiet hcloses hchars] at hnone
    exact (closingLength?_append_quiet hcloses hshown).2 (hafter hnone)

end Shown

/-! ## Reading back one word -/

/-- Neighbours in a row that are still two tokens when they are printed with a space between them,
    or none before a comma. -/
inductive StaysApart (locale : Locale) (t u : Token) : Prop
  | words : t.kind.isWord → u.kind.isWord → t.kind.mayFollow u.kind → StaysApart locale t u
  | literal : t.kind.isWord → u.kind.startsLiteral ∨ u.kind = .number → StaysApart locale t u
  /-- A keyword does not go on into the free text after it. -/
  | caption : t.kind.isWord → u.kind = .freeText →
    longestMatch? locale.regularTerminals (t.shown ++ ' ' :: u.shown) =
      some (t.kind, t.shown.length) → StaysApart locale t u
  | afterLiteral : t.kind.startsLiteral → u.kind = .comma ∨ u.kind.isWord → StaysApart locale t u
  | afterComma : t.kind = .comma → u.kind.startsLiteral → StaysApart locale t u
  | afterNumber : t.kind = .number → u.kind.isWord → StaysApart locale t u

/-- Neither decimals nor an exponent begin with another character. -/
theorem decimalsLength_eq_zero {text : List Char} (h : ∀ c ∈ text.head?, c ∉ ['.', 'e', 'E']) :
    Shape.decimalsLength text = 0 ∧ Shape.exponentLength text = 0 := by
  cases text with
  | nil => exact ⟨rfl, rfl⟩
  | cons c text =>
    have hc := h c rfl
    simp only [List.mem_cons, List.not_mem_nil, or_false, not_or] at hc
    rw [decimalsLength_cons, exponentLength_cons, if_neg hc.1, if_neg (by simp [hc])]
    exact ⟨rfl, rfl⟩

/-- A number without a sign is its whole part, where neither decimals nor an exponent follow. -/
theorem numberLength_of_wholeLength {c : Char} (hc : c ≠ '-') {rest : List Char} {n : Nat}
    (hwhole : Shape.wholeLength (c :: rest) = n) (hn : n ≠ 0)
    (hhead : ∀ d ∈ ((c :: rest).drop n).head?, d ∉ ['.', 'e', 'E']) :
    Shape.numberLength (c :: rest) = n := by
  have hsign : numberSign (c :: rest) = 0 := by
    rw [numberSign.eq_def]
    split
    · next heq => exact absurd (List.cons.inj heq).1 hc
    · rfl
  obtain ⟨hdecimals, hexponent⟩ := decimalsLength_eq_zero hhead
  rw [numberLength_eq, hsign, List.drop_zero, hwhole, if_neg hn]
  dsimp only
  rw [Nat.zero_add, hdecimals, Nat.add_zero, hexponent, Nat.add_zero]

/-- The number of digits goes no further than them. -/
theorem numberLength_digits {image rest after : List Char} (hne : image ≠ [])
    (hdigits : ∀ c ∈ image, c ∈ digits) (h : Shape.numberLength (image ++ rest) = image.length)
    (hafter : ∀ c ∈ after.head?, isDigit c = false ∧ c ∉ ['.', 'e', 'E']) :
    Shape.numberLength (image ++ after) = image.length := by
  obtain ⟨c, image, rfl⟩ := List.exists_cons_of_ne_nil hne
  obtain ⟨hc, himage⟩ := List.forall_mem_cons.1 hdigits
  have hall : ∀ d ∈ digits, (isDigit d = true ∧ d ∉ ['.', 'e', 'E']) ∧ d ≠ '-' ∧
      (d ≠ '0' → ('1' ≤ d && d ≤ '9') = true) := by
    decide
  obtain ⟨-, hsign, hfirst⟩ := hall c hc
  have hhead : ∀ d ∈ after.head?, d ∉ ['.', 'e', 'E'] := fun d hd => (hafter d hd).2
  by_cases hzero : c = '0'
  · -- after a zero there are no more digits
    have hwhole : ∀ rest, Shape.wholeLength (c :: rest) = 1 := fun rest => by
      rw [Shape.wholeLength_cons, if_pos hzero]
    cases image with
    | nil => exact numberLength_of_wholeLength hsign (hwhole _) Nat.one_ne_zero hhead
    | cons d image =>
      have hd := (hall d (himage d List.mem_cons_self)).1.2
      have := numberLength_of_wholeLength hsign (hwhole (d :: image ++ rest)) Nat.one_ne_zero
        fun e he => Option.some.inj he ▸ hd
      rw [List.cons_append, this] at h
      simp at h
  · have htake : (image ++ after).takeWhile isDigit = image := by
      exact takeWhile_append_stop (fun d hd => (hall d (himage d hd)).1.1)
        fun d hd => (hafter d hd).1
    have hwhole : Shape.wholeLength (c :: (image ++ after)) = image.length + 1 := by
      rw [Shape.wholeLength_cons, if_neg hzero, if_pos (hfirst hzero),
        Shape.digitsLength, htake, Nat.add_comm]
    have hnext : ∀ d ∈ ((c :: (image ++ after)).drop (image.length + 1)).head?,
        d ∉ ['.', 'e', 'E'] := by
      rwa [List.drop_succ_cons, List.drop_left]
    exact numberLength_of_wholeLength hsign hwhole (Nat.succ_ne_zero _) hnext

section One

variable {locale : Locale} {t u : Token} {rest after more : List Char}

theorem isLetter_space : isLetter ' ' = false := by
  decide

/-- A word reads back, if no longer form goes on into what follows. -/
theorem lexemeAt?_shown_word (h : lexemeAt? locale.regularTerminals (t.chars ++ rest) =
    some (t.kind, t.chars.length)) (hword : t.kind.isWord)
    (hafter : after.head?.any isLetter = false)
    (hlonger : ∀ v ∈ locale.wordTerminals, v.kind = t.kind → ∀ f ∈ v.forms,
      Spelling f.marks t.shown t.shown → ∀ g ∈ locale.forms, f.marks.length < g.marks.length →
        Shape.formLength? g (t.shown ++ after) = none) :
    lexemeAt? locale.regularTerminals (t.shown ++ after) = some (t.kind, t.shown.length) := by
  obtain ⟨v, hv, f, hf, hkind, hspelling, -⟩ := exists_form_of_shown h hword
  have hself := hspelling.squeezed_self
  rw [← hkind]
  exact Locale.lexemeAt?_of_spelling hv hf hself hafter (hlonger v hv hkind f hf hself)

theorem lexemeAt?_number (h : lexemeAt? locale.regularTerminals (t.chars ++ rest) =
    some (t.kind, t.chars.length)) (hkind : t.kind = .number) (hcount : t.count?.isSome)
    (hafter : ∀ c ∈ after.head?, isDigit c = false ∧ c ∉ ['.', 'e', 'E']) :
    lexemeAt? locale.regularTerminals (t.shown ++ after) = some (t.kind, t.shown.length) := by
  obtain ⟨hdigits, hlength⟩ := mem_digits_of_number (hkind ▸ h) hkind hcount
  have hpos := (lexemeAt?_le h).1
  have hne : t.chars ≠ [] := List.ne_nil_of_length_pos hpos
  have hnumber := numberLength_digits hne hdigits hlength hafter
  obtain ⟨c, image, hchars⟩ := List.exists_cons_of_ne_nil hne
  rw [shown_of_number h hkind hcount, hkind]
  rw [hchars] at hdigits hnumber ⊢
  rw [List.cons_append, lexemeAt?, longestMatch?_digit (hdigits c List.mem_cons_self),
    ← List.cons_append, hnumber]
  rfl

theorem lexemeAt?_comma (h : lexemeAt? locale.regularTerminals (t.chars ++ rest) =
    some (t.kind, t.chars.length)) (hkind : t.kind = .comma) :
    lexemeAt? locale.regularTerminals (t.shown ++ after) = some (t.kind, t.shown.length) := by
  rw [shown_of_comma h hkind, hkind, List.singleton_append, lexemeAt?, longestMatch?_comma]
  rfl

/-- A literal reads back, if nothing can close in what follows where nothing could in the source. -/
theorem lexemeAt?_shown_literal (h : lexemeAt? locale.regularTerminals (t.chars ++ rest) =
    some (t.kind, t.chars.length)) (hkind : t.kind.startsLiteral)
    (hafter : Shape.closingLength? t.kind.closes rest = none →
      Shape.closingLength? t.kind.closes after = none) :
    lexemeAt? locale.regularTerminals (t.shown ++ after) = some (t.kind, t.shown.length) := by
  obtain ⟨c, body, hchars, hopens, hclosing⟩ := exists_of_literal hkind h
  rw [shown_of_literal h hkind, hchars]
  exact lexemeAt?_literal hkind hopens (closingLength?_append hafter hclosing)

theorem closingLength?_newline (closes : Char → Bool) :
    Shape.closingLength? closes ('\n' :: more) = none := by
  rw [closingLength?_plain (by decide)]
  rfl

/-- The last word of a line reads back. -/
theorem lexemeAt?_last (h : lexemeAt? locale.regularTerminals (t.chars ++ rest) =
    some (t.kind, t.chars.length)) (ht : t.IsPrinted) (hend : t.KeepsEnd)
    (hletter : rest.head?.any isLetter = false) :
    lexemeAt? locale.regularTerminals (t.shown ++ '\n' :: more) =
      some (t.kind, t.shown.length) := by
  have hbreak : ∀ c ∈ ('\n' :: more).head?, IsUnread c ∧ isGap c = false := fun c hc =>
    Option.some.inj hc ▸ ⟨isUnread_of_isBlank isBlank_lineFeed, rfl⟩
  rcases ht.kind_cases with hword | hliteral | ⟨hk, hcount⟩ | hk | hk
  · refine lexemeAt?_shown_word h hword (isLetter_of_isBlank isBlank_lineFeed) ?_
    intro v hv _ f hf hspelling g hg hlt
    have hblanks : ∀ b ∈ ([] : List Char), isGap b := List.forall_mem_nil _
    exact Locale.formLength?_eq_none_of_unread (Locale.mem_forms hv hf)
      hg hspelling hlt hblanks hbreak
  · exact lexemeAt?_shown_literal h hliteral fun _ => closingLength?_newline _
  · refine lexemeAt?_number h hk hcount fun c hc => Option.some.inj hc ▸ ?_
    decide
  · exact lexemeAt?_comma h hk
  · obtain ⟨hcaption, ⟨n, hchars⟩, hnone⟩ := exists_caption h hk
    rw [hchars, List.append_assoc] at hnone
    have hhead : (List.replicate n ' ' ++ rest).head?.any isLetter = false := by
      cases n with
      | zero => exact hletter
      | succ n => exact isLetter_of_isBlank (show isBlank ' ' = true by decide)
    -- a caption that keeps its end does not end in a slash, so it is as long as it is shown
    rw [Locale.lexemeAt?_caption hcaption hnone hhead more, if_neg (hend hk), nonempty, if_neg, hk]
    · rfl
    · obtain ⟨c, image, hshown, -⟩ := hcaption.first
      rw [hshown]
      exact Nat.succ_ne_zero _

/-- A word reads back before another one that may follow it. -/
theorem lexemeAt?_before_word (h : lexemeAt? locale.regularTerminals (t.chars ++ rest) =
    some (t.kind, t.chars.length)) (hword : t.kind.isWord) {rest' : List Char}
    (hu : lexemeAt? locale.regularTerminals (u.chars ++ rest') = some (u.kind, u.chars.length))
    (hword' : u.kind.isWord) (hfollow : t.kind.mayFollow u.kind) (tail : List Char) :
    lexemeAt? locale.regularTerminals (t.shown ++ ' ' :: (u.shown ++ tail)) =
      some (t.kind, t.shown.length) := by
  obtain ⟨w, hw, f', hf', hkind', hspelling', -⟩ := exists_form_of_shown hu hword'
  refine lexemeAt?_shown_word h hword isLetter_space fun v hv hkind f hf hspelling g hg hlt => ?_
  exact Locale.formLength?_eq_none_of_follows hv hf hg hspelling hlt hw hf'
    (by rw [hkind, hkind']; exact hfollow) hspelling'.squeezed_self tail

/-- A literal or a number begins with a character that goes on no word. -/
theorem exists_shown_unread (h : lexemeAt? locale.regularTerminals (t.chars ++ rest) =
    some (t.kind, t.chars.length)) (ht : t.IsPrinted)
    (hkind : t.kind.startsLiteral ∨ t.kind = .number) :
    ∃ c more, t.shown = c :: more ∧ IsUnread c ∧ isGap c = false := by
  obtain ⟨c, more, hshown, hblank, -⟩ := exists_shown_cons h ht
  refine ⟨c, more, hshown, ?_, isGap_eq_false hblank⟩
  rcases hkind with hliteral | hnumber
  · obtain ⟨d, body, hchars, hopens, -⟩ := exists_of_literal hliteral h
    rw [shown_of_literal h hliteral, hchars] at hshown
    exact (List.cons.inj hshown).1 ▸ (isUnread_of_opens hopens).1
  · have hcount := ht.number hnumber
    rw [shown_of_number h hnumber hcount] at hshown
    have hdigits := (mem_digits_of_number (hnumber ▸ h) hnumber hcount).1
    exact (isBlank_of_mem_digits (hdigits c (hshown ▸ List.mem_cons_self))).1

/-- A word reads back before what goes on no word. -/
theorem lexemeAt?_before_unread (h : lexemeAt? locale.regularTerminals (t.chars ++ rest) =
    some (t.kind, t.chars.length)) (hword : t.kind.isWord)
    (hafter : ∀ c ∈ after.head?, IsUnread c ∧ isGap c = false) :
    lexemeAt? locale.regularTerminals (t.shown ++ ' ' :: after) =
      some (t.kind, t.shown.length) := by
  refine lexemeAt?_shown_word h hword isLetter_space fun v hv _ f hf hspelling g hg hlt => ?_
  exact Locale.formLength?_eq_none_of_unread (Locale.mem_forms hv hf) hg hspelling hlt
    (List.forall_mem_singleton.2 rfl) hafter

/-- A word reads back before free text at the end of a line, if it does not go
    on into the free text. -/
theorem lexemeAt?_before_caption (h : lexemeAt? locale.regularTerminals (t.chars ++ rest) =
    some (t.kind, t.chars.length)) (hword : t.kind.isWord)
    (hmatch : longestMatch? locale.regularTerminals (t.shown ++ ' ' :: u.shown) =
      some (t.kind, t.shown.length))
    {c : Char} {image : List Char} (hshown : u.shown = c :: image) (hblank : isBlank c = false)
    (more : List Char) :
    lexemeAt? locale.regularTerminals (t.shown ++ ' ' :: (u.shown ++ '\n' :: more)) =
      some (t.kind, t.shown.length) := by
  have hgap : ∀ d ∈ u.shown.head?, isGap d = false := hshown ▸ isGap_head?_eq_false hblank image
  have hbreak : ∀ d ∈ ('\n' :: more).head?, IsUnread d := fun d hd =>
    Option.some.inj hd ▸ isUnread_of_isBlank isBlank_lineFeed
  refine lexemeAt?_shown_word h hword isLetter_space fun v hv _ f hf hspelling g hg hlt => ?_
  rw [Locale.formLength?_append_unread hv hf hg hspelling hlt (hshown ▸ List.cons_ne_nil _ _) hgap
    hbreak]
  -- a longer form would be a longer match
  cases hlonger : Shape.formLength? g (t.shown ++ ' ' :: u.shown) with
  | none => rfl
  | some n =>
    have hform : Shape.formLength? f (t.shown ++ ' ' :: u.shown) = some t.shown.length := by
      refine formLength?_eq_some_iff.2 ⟨hspelling.length_eq _, fun _ => ?_⟩
      rw [List.drop_left]
      exact isLetter_space
    have := (Locale.formLength?_lt_iff (Locale.mem_forms hv hf) hg hform hlonger).2 hlt
    exact absurd (Locale.formLength?_le_longest hmatch hg hlonger) (Nat.not_le.2 this)

/-- A word before another one reads back, if nothing can close in the rest of the printed line where
    nothing could in the rest of the source. -/
theorem lexemeAt?_before (h : lexemeAt? locale.regularTerminals (t.chars ++ rest) =
    some (t.kind, t.chars.length)) (ht : t.IsPrinted) (hapart : StaysApart locale t u)
    {rest' tail : List Char} (hu : lexemeAt? locale.regularTerminals (u.chars ++ rest') =
      some (u.kind, u.chars.length)) (hprinted : u.IsPrinted)
    (htail : u.kind = .freeText → ∃ more, tail = '\n' :: more)
    (hafter : Shape.closingLength? t.kind.closes rest = none → Shape.closingLength? t.kind.closes
      ((if u.kind = .comma then [] else [' ']) ++ (u.shown ++ tail)) = none) :
    lexemeAt? locale.regularTerminals
        (t.shown ++ ((if u.kind = .comma then [] else [' ']) ++ (u.shown ++ tail))) =
      some (t.kind, t.shown.length) := by
  have hspace {p : TokenKind → Prop} (hkind : p u.kind) (hcomma : ¬ p .comma) :
      (if u.kind = .comma then [] else [' ']) ++ (u.shown ++ tail) = ' ' :: (u.shown ++ tail) := by
    have hne : u.kind ≠ .comma := fun heq => hcomma (heq ▸ hkind)
    rw [if_neg hne, List.singleton_append]
  cases hapart with
  | words hword hword' hfollow =>
    rw [hspace (p := (·.isWord)) hword' Bool.false_ne_true]
    exact lexemeAt?_before_word h hword hu hword' hfollow tail
  | literal hword hliteral =>
    rw [hspace (p := fun kind => kind.startsLiteral ∨ kind = .number) hliteral (by decide)]
    obtain ⟨c, image, hshown, hunread⟩ := exists_shown_unread hu hprinted hliteral
    rw [hshown]
    exact lexemeAt?_before_unread h hword fun d hd => Option.some.inj hd ▸ hunread
  | caption hword hfree hmatch =>
    rw [hspace (p := (· = .freeText)) hfree (by decide)]
    obtain ⟨c, image, hshown, hblank, -⟩ := exists_shown_cons hu hprinted
    obtain ⟨more, rfl⟩ := htail hfree
    exact lexemeAt?_before_caption h hword hmatch hshown hblank more
  | afterLiteral hliteral => exact lexemeAt?_shown_literal h hliteral hafter
  | afterComma hcomma => exact lexemeAt?_comma h hcomma
  | afterNumber hnumber hword =>
    rw [hspace (p := (·.isWord)) hword Bool.false_ne_true]
    refine lexemeAt?_number h hnumber (ht.number hnumber) fun d hd => ?_
    obtain rfl : ' ' = d := Option.some.inj hd
    decide

end One

/-! ## Reading back a line -/

section Line

variable {locale : Locale} {words : List Token} {text : List Char}

theorem Written.exists_head {u : Token} (h : Written locale (u :: words) text) :
    ∃ rest, text = u.chars ++ rest ∧
      lexemeAt? locale.regularTerminals (u.chars ++ rest) = some (u.kind, u.chars.length) := by
  cases h with
  | last hlexeme => exact ⟨_, rfl, hlexeme⟩
  | cons hlexeme => exact ⟨_, rfl, hlexeme⟩

theorem exists_lineChars_cons (u : Token) (words : List Token) :
    ∃ tail, lineChars (u :: words) = u.shown ++ tail ∧ (words = [] → tail = []) := by
  cases words with
  | nil => exact ⟨[], (List.append_nil _).symm, fun _ => rfl⟩
  | cons v words => exact ⟨_, rfl, fun h => nomatch h⟩

/-- Free text stands last. -/
theorem StaysApart.ne_freeText {t u : Token} (h : StaysApart locale t u) : t.kind ≠ .freeText := by
  intro hkind
  cases h with
  | words h => rw [hkind] at h; cases h
  | literal h => rw [hkind] at h; cases h
  | caption h => rw [hkind] at h; cases h
  | afterLiteral h => rw [hkind] at h; cases h
  | afterComma h => rw [hkind] at h; cases h
  | afterNumber h => rw [hkind] at h; cases h

/-- What the printer puts before a word closes nothing. -/
theorem notMem_delimiters_of_space (u : Token) :
    ∀ c ∈ (if u.kind = .comma then [] else [' ']), c ∉ delimiters := by
  split <;> decide

/-- In the printed words of a line nothing can close that could not in the source. -/
theorem Written.closingLength?_lineChars (h : Written locale words text)
    (hprinted : ∀ t ∈ words, t.IsPrinted) (more : List Char) {closes : Char → Bool}
    (hcloses : ∀ c, closes c → c ∈ delimiters) (hnone : Shape.closingLength? closes text = none) :
    Shape.closingLength? closes (lineChars words ++ '\n' :: more) = none := by
  induction h with
  | @last t rest hlexeme _ =>
    exact closingLength?_shown hlexeme (hprinted t List.mem_cons_self) hcloses
      (fun _ => closingLength?_newline closes) hnone
  | @cons t u words blanks rest hlexeme hblanks _ ih =>
    obtain ⟨ht, hprinted⟩ := List.forall_mem_cons.1 hprinted
    rw [lineChars, List.append_assoc, List.append_assoc]
    refine closingLength?_shown hlexeme ht hcloses (fun hnone => ?_) hnone
    rw [closingLength?_append_quiet hcloses fun c hc =>
      notMem_delimiters_of_isInnerBlank (hblanks c hc)] at hnone
    rw [closingLength?_append_quiet hcloses (notMem_delimiters_of_space u)]
    exact ih hprinted hnone

/-- The words of a line of the source read back from the printed line. -/
theorem Written.cut_lineChars (h : Written locale words text)
    (hapart : words.IsChain (StaysApart locale)) (hprinted : ∀ t ∈ words, t.IsPrinted)
    (hend : ∀ t ∈ words, t.KeepsEnd) (more : List Char) :
    cut locale.regularTerminals (lineChars words ++ '\n' :: more) =
      linePieces words ++ cut locale.regularTerminals ('\n' :: more) := by
  induction h with
  | @last t rest hlexeme hletter =>
    exact cut_append (lexemeAt?_last hlexeme (hprinted t List.mem_cons_self)
      (hend t List.mem_cons_self) hletter)
  | @cons t u words blanks rest hlexeme hblanks hwritten ih =>
    obtain ⟨ht, hprinted⟩ := List.forall_mem_cons.1 hprinted
    obtain ⟨hapart, hchain⟩ := List.isChain_cons_cons.1 hapart
    have hcut := ih hchain hprinted fun v hv => hend v (List.mem_cons_of_mem t hv)
    obtain ⟨rest', -, hlexeme'⟩ := hwritten.exists_head
    have hu := hprinted u List.mem_cons_self
    obtain ⟨tail, htail, hnil⟩ := exists_lineChars_cons u words
    have hline : lineChars (t :: u :: words) ++ '\n' :: more = t.shown ++
        ((if u.kind = .comma then [] else [' ']) ++ (u.shown ++ (tail ++ '\n' :: more))) := by
      rw [lineChars, htail]
      simp only [List.append_assoc]
    -- what stays open after the word in the source stays open in the printed line
    have hnone (hnone : Shape.closingLength? t.kind.closes (blanks ++ rest) = none) :
        Shape.closingLength? t.kind.closes
          ((if u.kind = .comma then [] else [' ']) ++ (u.shown ++ (tail ++ '\n' :: more))) =
          none := by
      have hcloses : ∀ c, t.kind.closes c → c ∈ delimiters := fun _ => TokenKind.closes_mem
      rw [closingLength?_append_quiet hcloses (notMem_delimiters_of_space u), ← List.append_assoc,
        ← htail]
      refine hwritten.closingLength?_lineChars hprinted more hcloses ?_
      exact (closingLength?_append_quiet hcloses fun c hc =>
        notMem_delimiters_of_isInnerBlank (hblanks c hc)).1 hnone
    have hlast : u.kind = .freeText → ∃ more', tail ++ '\n' :: more = '\n' :: more' := by
      intro hfree
      cases words with
      | nil => exact ⟨more, by rw [hnil rfl]; rfl⟩
      | cons v words => exact absurd hfree (List.isChain_cons_cons.1 hchain).1.ne_freeText
    rw [hline, cut_append (lexemeAt?_before hlexeme ht hapart hlexeme' hu hlast hnone), linePieces,
      List.cons_append]
    congr 1
    rw [← List.append_assoc u.shown, ← htail, List.append_assoc, ← hcut]
    split
    · rfl
    -- the space before the next word
    · obtain ⟨c, image, hshown, hblank, hmark⟩ := exists_shown_cons hlexeme' hu
      rw [htail, hshown, List.cons_append, List.cons_append]
      exact cut_gaps (List.forall_mem_singleton.2 rfl) hblank hmark _

end Line

end Wireframe
