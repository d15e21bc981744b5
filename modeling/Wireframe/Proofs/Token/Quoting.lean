import Wireframe.Proofs.Token.Names

/-!
# Quoting

Any text of one line can be quoted: with a backslash before each backslash and each
double quote, and between double quotes. The lexer takes exactly this, whatever comes
after it (`lexemeAt?_quote`), and the text of a value or a literal is what was quoted
(`quotationText_quote`): both agree on which backslashes protect a character,
guillemets in the text or not.
-/

namespace Wireframe

/-- A text with a backslash before each backslash and each double quote. -/
def escape (text : List Char) : List Char :=
  text.flatMap fun c => if c = '\\' || c = '"' then ['\\', c] else [c]

/-- A text in double quotes. -/
def quote (text : List Char) : List Char :=
  '"' :: (escape text ++ ['"'])

theorem escape_cons_of_protected {c : Char} (hc : c = '\\' ∨ c = '"') (text : List Char) :
    escape (c :: text) = '\\' :: c :: escape text := by
  rcases hc with rfl | rfl <;> rfl

theorem escape_cons_of_plain {c : Char} (hslash : c ≠ '\\') (hquote : c ≠ '"') (text : List Char) :
    escape (c :: text) = c :: escape text := by
  rw [escape, List.flatMap_cons, if_neg (by simp [hslash, hquote])]
  rfl

/-- What was escaped is unescaped to the text. -/
theorem unescape_escape (text : List Char) : unescape (escape text) = text := by
  induction text with
  | nil => rfl
  | cons c text ih =>
    by_cases hslash : c = '\\'
    · rw [escape_cons_of_protected (.inl hslash), unescape, if_pos (by subst hslash; rfl), ih]
    · by_cases hquote : c = '"'
      · rw [escape_cons_of_protected (.inr hquote), unescape, if_pos (by subst hquote; rfl), ih]
      · rw [escape_cons_of_plain hslash hquote, unescape_cons hslash, ih]

/-- The text of a quotation is what was quoted. -/
theorem quotationText_quote (text : List Char) : quotationText (quote text) = text := by
  have hstrip : stripDelimiters (quote text) = escape text := List.dropLast_concat
  rw [quotationText, hstrip, unescape_escape]

section Quote

variable {text : List Char}

/-- An escaped text is closed by the double quote after it, and by nothing before or after. -/
theorem closingLength?_escape_quote (htext : ∀ c ∈ text, Shape.isBreak c = false)
    (rest : List Char) :
    Shape.closingLength? QuoteStyle.double.closes (escape text ++ '"' :: rest) =
      some ((escape text).length + 1) := by
  induction text with
  | nil => rfl
  | cons c text ih =>
    obtain ⟨hc, htext⟩ := List.forall_mem_cons.1 htext
    have hbreak : c ≠ '\n' := by
      rintro rfl
      exact Bool.noConfusion hc
    replace ih := ih htext
    by_cases hprotected : c = '\\' ∨ c = '"'
    · rw [escape_cons_of_protected hprotected, List.cons_append, List.cons_append,
        closingLength?_escape, if_neg hbreak, ih, Option.map_some, List.length_cons,
        List.length_cons]
      exact congrArg some (by omega)
    · obtain ⟨hslash, hquote⟩ := not_or.1 hprotected
      rw [escape_cons_of_plain hslash hquote, List.cons_append, closingLength?_plain hslash, hc, ih,
        if_neg Bool.false_ne_true, if_neg hquote, List.length_cons]
      exact congrArg some (by omega)

/-- A quoted text is a lexeme, whatever comes after it. -/
theorem lexemeAt?_quote (locale : Locale) (htext : ∀ c ∈ text, Shape.isBreak c = false)
    (rest : List Char) : lexemeAt? locale.regularTerminals (quote text ++ rest) =
      some (.quotation, (quote text).length) := by
  have hquote : quote text ++ rest =
      QuoteStyle.double.opening :: (escape text ++ '"' :: rest) := by
    simp [quote, QuoteStyle.opening]
  rw [hquote, lexemeAt?_opening (closingLength?_escape_quote htext rest)]
  simp [quote, QuoteStyle.kind, Nat.add_comm]

/-- The first token of a text that begins with a quoted text. -/
theorem Lexing.head?_tokens_quote (locale : Locale) (htext : ∀ c ∈ text, Shape.isBreak c = false)
    (rest : List Char) : (ofText locale (quote text ++ rest)).tokens.head? =
      some ⟨.quotation, String.ofList (quote text), .ofText 0 .start (quote text)⟩ := by
  rw [ofText, Locale.pieces, cut_append (lexemeAt?_quote locale htext rest)]
  rfl

end Quote

end Wireframe
