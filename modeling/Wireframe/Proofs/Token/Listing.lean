import Mathlib.Data.List.Forall2
import Mathlib.Data.List.Nodup
import Wireframe.Proofs.Text.Legible
import Wireframe.Token

/-!
# Reading a token listing back

A token listing shows the place, the kind and the text of every token, and nothing is lost on the
way: two listings are the same only if the tokens agree in all that is shown, one by one
(`tokenListing_spec`). Whatever the texts of the tokens are, a listing has one line feed a token. It
does not matter which characters of a text are shown by the numbers of their code points.

A number ends where a digit no longer follows, a kind has a name of its own without a space in it
(`TokenKind.name_injective`), and a quoted text shows where it ends. So a line of a listing can be
told from all that begins with it (`Token.isLegible_lineListing`), and a listing is read line by
line.
-/

namespace Wireframe

open Text

namespace TokenKind

/-- Every kind of token. -/
def all : List TokenKind :=
  [comment, quotation, placeholder, freeText, number, lineEnd, blanks, comma, colon] ++
    Keyword.all.map keyword ++ Numeral.all.map numeral

theorem mem_all (kind : TokenKind) : kind ∈ all := by
  cases kind with
  | keyword meaning => cases meaning <;> decide
  | numeral meaning => cases meaning <;> decide
  | _ => decide

/-- No two kinds have the same name. -/
theorem name_injective : Function.Injective name := fun kind other =>
  List.inj_on_of_nodup_map (f := name) (l := all) (by decide) (mem_all kind) (mem_all other)

/-- The name of a kind is a word. -/
theorem space_notMem_name (kind : TokenKind) :
    ' ' ∉ kind.name.toList ∧ '\n' ∉ kind.name.toList := by
  have hall : ∀ kind ∈ all, ' ' ∉ kind.name.toList ∧ '\n' ∉ kind.name.toList := by decide
  exact hall kind kind.mem_all

end TokenKind

namespace Token

/-- What a line of a listing says of a token: its line, column, kind and text. -/
def listed (t : Token) : Nat × Nat × TokenKind × String :=
  (t.line, t.range.start.column, t.kind, t.image)

/-- The line of a listing that says so, if the characters of some set are shown by the numbers
    of their code points. -/
def lineListing (numbered : Char → Bool) (parts : Nat × Nat × TokenKind × String) : List Char :=
  (Nat.toDigits 10 parts.1 ++ [':']) ++ ((Nat.toDigits 10 parts.2.1 ++ [' ']) ++
    ((parts.2.2.1.name.toList ++ [' ']) ++ quoteWith numbered parts.2.2.2.toList)) ++ ['\n']

/-- A line of a listing can be told from all that begins with it. -/
theorem isLegible_lineListing (numbered : Char → Bool) : IsLegible (lineListing numbered) := by
  have hline : IsLegible fun n => Nat.toDigits 10 n ++ [':'] :=
    isLegible_toDigits (by decide) (by decide) (by decide)
  have hcolumn : IsLegible fun n => Nat.toDigits 10 n ++ [' '] :=
    isLegible_toDigits (by decide) (by decide) (by decide)
  have hkind : IsLegible fun kind : TokenKind => kind.name.toList ++ [' '] :=
    .ended (fun _ _ h => TokenKind.name_injective (String.toList_inj.1 h))
      fun kind => kind.space_notMem_name.1
  have himage : IsLegible fun image : String => quoteWith numbered image.toList :=
    isLegible_quoteWith.comp fun _ _ => String.toList_inj.1
  exact (hline.append (hcolumn.append (hkind.append himage))).before ['\n']

/-- A line of a listing ends with its only line feed. -/
theorem count_lineListing (numbered : Char → Bool) (parts : Nat × Nat × TokenKind × String) :
    (lineListing numbered parts).count '\n' = 1 := by
  have hdigits : ∀ n, '\n' ∉ Nat.toDigits 10 n := fun n hmem => by
    have hall : ∀ i < 10, '\n' ≠ Nat.digitChar i := by decide
    obtain ⟨i, hi, heq⟩ := exists_digitChar_of_mem (by decide) hmem
    exact hall i hi heq
  have hkind := parts.2.2.1.space_notMem_name.2
  have himage : '\n' ∉ quoteWith numbered parts.2.2.2.toList := lineFeed_notMem_quoteWith _
  simp [lineListing, List.count_append, List.count_eq_zero_of_not_mem, hdigits, hkind, himage]

end Token

/-- A token listing, if the characters of some set are shown by the numbers of their code points. -/
def tokenListingWith (numbered : Char → Bool) (tokens : List Token) : String :=
  String.ofList ((tokens.map Token.listed).flatMap (Token.lineListing numbered))

theorem tokenListing_eq (tokens : List Token) :
    tokenListing tokens = tokenListingWith (!isShown ·) tokens := by
  have hline (t : Token) :
      t.listingLine.toList = Token.lineListing (!isShown ·) t.listed := by
    simp [Token.listingLine, Token.description, Position.display, Token.lineListing, Token.listed,
      Token.line, quoted, quote_eq, toString]
  refine String.toList_inj.1 ?_
  rw [tokenListing, String.toList_join, tokenListingWith, String.toList_ofList, List.flatMap_map,
    List.flatMap_map]
  exact List.flatMap_congr fun t _ => hline t

/-- Tokens that a listing shows alike. -/
def Token.ListedAlike (t u : Token) : Prop :=
  t.line = u.line ∧ t.range.start.column = u.range.start.column ∧
  t.kind = u.kind ∧ t.image = u.image

theorem tokenListingWith_inj (numbered : Char → Bool) (tokens others : List Token) :
    tokenListingWith numbered tokens = tokenListingWith numbered others ↔
      List.Forall₂ Token.ListedAlike tokens others := by
  have hread : Function.Injective fun lines : List _ =>
      lines.flatMap (Token.lineListing numbered) :=
    (Token.isLegible_lineListing numbered).flatMap_injective fun parts => by
      simp [Token.lineListing]
  rw [tokenListingWith, tokenListingWith, String.ofList_inj]
  refine hread.eq_iff.trans ?_
  rw [← List.forall₂_eq_eq_eq, List.forall₂_map_left_iff, List.forall₂_map_right_iff]
  simp only [Token.listed, Prod.mk.injEq]
  rfl

theorem count_tokenListingWith (numbered : Char → Bool) (tokens : List Token) :
    (tokenListingWith numbered tokens).toList.count '\n' = tokens.length := by
  rw [tokenListingWith, String.toList_ofList, List.flatMap_map, List.count_flatMap]
  simp [Function.comp_def, Token.count_lineListing]

/-- Two listings are the same just when they list as many tokens, and these agree one by one in
    their line, column, kind and text. A listing has as many line feeds as tokens. And this would be
    so whichever characters were shown by the numbers of their code points. -/
theorem tokenListing_spec (tokens others : List Token) :
    (tokenListing tokens = tokenListing others ↔
      tokens.length = others.length ∧ List.Forall₂ Token.ListedAlike tokens others) ∧
    (tokenListing tokens).toList.count '\n' = tokens.length ∧
    ∀ numbered : Char → Bool,
      (tokenListingWith numbered tokens = tokenListingWith numbered others ↔
        tokens.length = others.length ∧ List.Forall₂ Token.ListedAlike tokens others) ∧
      (tokenListingWith numbered tokens).toList.count '\n' = tokens.length := by
  have hall (numbered : Char → Bool) :
      (tokenListingWith numbered tokens = tokenListingWith numbered others ↔
        tokens.length = others.length ∧ List.Forall₂ Token.ListedAlike tokens others) ∧
      (tokenListingWith numbered tokens).toList.count '\n' = tokens.length := by
    refine ⟨?_, count_tokenListingWith numbered tokens⟩
    rw [tokenListingWith_inj]
    exact ⟨fun h => ⟨h.length_eq, h⟩, And.right⟩
  rw [tokenListing_eq, tokenListing_eq]
  exact ⟨(hall _).1, (hall _).2, hall⟩

end Wireframe
