import Wireframe.Proofs.Detection.Earliest
import Wireframe.Proofs.Grammar.Fidelity
import Wireframe.Proofs.Scene.Renaming
import Wireframe.Proofs.Token.Names

/-!
# Reading a text line by line

A text and the lines after it are read like the text, with the tokens of the lines after its own
(`Reading.ofText_lines_eq_success_iff`): nothing changes in the text, neither its locale nor its
tokens. What is in the lines is moved, which means nothing to the grammar (`isRenaming_moved`).
-/

namespace Wireframe

section Reading

variable {o : ReadingOptions} {text : List Char} {locale : Locale} {s : Scene} {tokens : List Token}

/-! ## Moved tokens -/

/-- Tokens further down stand for the same. -/
theorem isRenaming_moved (bytes lines : Nat) : IsRenaming (Token.moved bytes lines) :=
  ⟨fun _ => rfl, fun _ => rfl⟩

theorem map_lexeme_moved (bytes lines : Nat) (tokens : List Token) :
    (tokens.map (.moved bytes lines)).map Token.lexeme = tokens.map Token.lexeme := by
  rw [List.map_map]
  rfl

theorem Parsing.kept_moved (locale : Locale) (bytes lines : Nat) (text : List Char) :
    kept ((Lexing.ofText locale text).tokens.map (.moved bytes lines)) =
      (Lexing.ofText locale text).tokens.map (.moved bytes lines) := by
  rw [kept_map (isRenaming_moved bytes lines), kept_tokens]

/-! ## The text and its locale -/

/-- A line feed is added at the end of a text and nowhere else. -/
theorem ReadingOptions.source_append (o : ReadingOptions) (htext : text.getLast? = some '\n')
    (more : List Char) : o.source (text ++ more) = text ++ o.source more := by
  rw [source, source]
  split
  · cases more with
    | nil =>
      rw [List.append_nil, endLastLine, if_pos (by rw [htext]; simp)]
      exact (List.append_nil text).symm
    | cons c more =>
      have hlast : (text ++ c :: more).getLast? = (c :: more).getLast? :=
        List.getLast?_append_of_ne_nil _ (List.cons_ne_nil _ _)
      have hempty : (text ++ c :: more).isEmpty = false := by simp
      rw [endLastLine, endLastLine, hlast, hempty, List.isEmpty_cons]
      split
      · rfl
      · exact List.append_assoc ..
  · rfl

theorem ReadingOptions.source_nil (o : ReadingOptions) : o.source [] = [] := by
  rw [source]
  split <;> rfl

theorem ReadingOptions.source_eq (o : ReadingOptions) (htext : text.getLast? = some '\n') :
    o.source text = text := by
  have := o.source_append htext []
  rwa [o.source_nil, List.append_nil] at this

/-- A text with a page in it has a locale. -/
theorem Locale.exists_detect?_eq {t : Token} (ht : t ∈ (Lexing.ofText locale text).tokens)
    (hkind : t.kind = .keyword .page) : ∃ found, detect? text = some found := by
  have hsegmented := isSegmented_segmentsOf locale text
  rw [hsegmented.tokens_eq] at ht
  obtain ⟨segment, hmem, hsegment⟩ := List.mem_filterMap.1 ht
  obtain rfl := mem_of_token? hsegment
  obtain ⟨front, back, hsplit⟩ := List.append_of_mem hmem
  rw [hsplit] at hsegmented
  have htext : text = textOf front ++ textOf (.token t :: back) := by
    rw [← textOf_append]
    exact hsegmented.splits.flatMap_image.symm
  refine Option.ne_none_iff_exists'.1 fun hnone => ?_
  exact detect?_eq_none_iff.1 hnone _ _ htext locale (hsegmented.opensPage hkind).1

/-- A locale that is settled stays so when the text goes on. -/
theorem ReadingOptions.locale?_append (h : o.locale? text = some locale) (more : List Char) :
    o.locale? (text ++ more) = some locale := by
  rw [locale?] at h ⊢
  cases hlocale : o.locale with
  | fixed => rwa [hlocale] at h
  | auto =>
    rw [hlocale] at h
    exact Locale.detect?_append_of_some h more

/-! ## More lines -/

/-- What a text is read to, with more lines after it. -/
theorem Reading.ofText_lines_eq_success_iff (htext : text.getLast? = some '\n')
    (hread : ofText o text = success locale s tokens) {more : List Char}
    (hmore : more.getLast? = some '\n') {s' : Scene} {tokens' : List Token} :
    ofText o (text ++ more) = success locale s' tokens' ↔
      (Lexing.ofText locale more).errors = [] ∧
      tokens' = tokens ++ (Lexing.ofText locale more).tokens.map
        (.moved (byteLength text) (text.count '\n')) ∧
      (Parsing.ofTokens o.errorLimit tokens').errors = [] ∧
      s' = { (Parsing.ofTokens o.errorLimit tokens').scene with
        comments := s.comments ++ ((Lexing.ofText locale more).comments.map
          (.moved (byteLength text) (text.count '\n'))).map Comment.mk } := by
  obtain ⟨hlocale, hlex, rfl, -, rfl⟩ := of_success hread
  rw [o.source_eq htext] at hlocale hlex ⊢
  have hboth : (text ++ more).getLast? = some '\n' := by
    rw [List.getLast?_append, hmore]
    rfl
  rw [ofText_eq_success_iff, o.source_eq hboth, Lexing.ofText_lines locale (.inr htext)]
  simp only [ReadingOptions.locale?_append hlocale, true_and, Lexing.append, Lexing.moved, hlex,
    List.nil_append, List.map_eq_nil_iff, List.map_append]

end Reading

end Wireframe
