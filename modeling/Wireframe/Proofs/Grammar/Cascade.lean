import Wireframe.Proofs.Grammar.Course
import Wireframe.Proofs.Grammar.Diagnosis
import Wireframe.Proofs.Token.Order

/-!
# Errors do not cascade

The errors of a parse come in the order of the source, and one mistake is one error: of a line at
most one thing is reported, and before it at most one number that is no count
(`Parsing.ofTokens_blames`). All of this is read off the course of a parse (`Parse.Reports`), where
every two errors stand apart (`Parse.Precedes`).
-/

namespace Wireframe

namespace Parse

variable {tokens rest rest' : List Token} {σ τ : Blamed} {es : List ParseError} {e e' : ParseError}

/-- One error stands before another. If they are on one line, the first is about a count and
    the other one is not. -/
def Precedes (tokens : List Token) (e e' : ParseError) : Prop :=
  ∃ before t between after, tokens = before ++ t :: between ++ after ∧ e.found = some t ∧
    e'.found = after.head? ∧ ((∀ u ∈ t :: between, u.kind ≠ .lineEnd) →
      e.expectation = .count ∧ e'.expectation ≠ .count)

theorem Precedes.append (h : Precedes tokens e e') (read : List Token) :
    Precedes (read ++ tokens) e e' := by
  obtain ⟨before, t, between, after, rfl, h⟩ := h
  exact ⟨read ++ before, t, between, after, by simp only [List.append_assoc], h⟩

/-- What may still be reported of a line. -/
def Blamed.Allows : Blamed → Expectation → Prop
  | .nothing, _ => True
  | .count, e => e ≠ .count
  | .other, _ => False

namespace Reports

/-- An error is of a token that is left or of the end of the input; on the line that a parse is on,
    it is one that is allowed there. -/
theorem exists_found (h : Reports tokens σ rest es τ rest') (he : e ∈ es) :
    ∃ between after, rest = between ++ after ∧ e.found = after.head? ∧
      ((∀ u ∈ between, u.kind ≠ .lineEnd) → Blamed.Allows σ e.expectation) := by
  -- an error is found where it is reported; later ones, after what was read meanwhile
  induction h with
  | stay => exact absurd he List.not_mem_nil
  | word ht _ ih =>
    obtain ⟨between, after, rfl, hfound, hline⟩ := ih he
    exact ⟨_ :: between, after, rfl, hfound, fun hall => hline (List.forall_mem_cons.1 hall).2⟩
  | lineEnd ht _ ih =>
    obtain ⟨between, after, rfl, hfound, -⟩ := ih he
    exact ⟨_ :: between, after, rfl, hfound, fun hall => absurd ht (List.forall_mem_cons.1 hall).1⟩
  | @count _ t rest _ _ _ _ _ hfound _ ih =>
    rcases List.mem_cons.1 he with rfl | he
    · exact ⟨[], t :: rest, rfl, hfound, fun _ => trivial⟩
    · obtain ⟨between, after, rfl, hfound, -⟩ := ih he
      exact ⟨t :: between, after, rfl, hfound, fun _ => trivial⟩
  | @other σ _ rest _ _ _ hσ hcount hfound _ _ ih =>
    rcases List.mem_cons.1 he with rfl | he
    · refine ⟨[], rest, rfl, hfound, fun _ => ?_⟩
      cases σ with
      | nothing => trivial
      | count => exact hcount
      | other => exact absurd rfl hσ
    · obtain ⟨between, after, hrest, hfound, hline⟩ := ih he
      exact ⟨between, after, hrest, hfound, fun hall => (hline hall).elim⟩

/-- The errors stand one before the other. -/
theorem pairwise (h : Reports tokens σ rest es τ rest') : es.Pairwise (Precedes rest) := by
  induction h with
  | stay => exact .nil
  | @word _ _ t _ _ _ _ _ ih | @lineEnd _ _ t _ _ _ _ _ ih => exact ih.imp fun h => h.append [t]
  | @count _ t rest e es _ _ he hfound h ih =>
    refine List.pairwise_cons.2 ⟨fun e' he' => ?_, ih.imp fun h => h.append [t]⟩
    obtain ⟨between, after, hrest, hfound', hline⟩ := h.exists_found he'
    exact ⟨[], t, between, after, by rw [hrest]; rfl, hfound, hfound',
      fun hall => ⟨he, hline (List.forall_mem_cons.1 hall).2⟩⟩
  | @other _ _ rest e es _ _ _ hfound _ h ih =>
    refine List.pairwise_cons.2 ⟨fun e' he' => ?_, ih⟩
    -- the next error is behind a line end, and so behind the token that was found
    obtain ⟨between, after, hrest, hfound', hline⟩ := h.exists_found he'
    cases between with
    | nil => exact (hline fun _ hu => absurd hu List.not_mem_nil).elim
    | cons t between =>
      exact ⟨[], t, between, after, hrest, by rw [hfound, hrest]; rfl, hfound',
        fun hall => (hline hall).elim⟩

theorem isMissing (h : Reports tokens σ rest es τ rest') (he : e ∈ es) (hfound : e.found = none) :
    IsMissing tokens e.expectation := by
  induction h with
  | stay => exact absurd he List.not_mem_nil
  | word _ _ ih | lineEnd _ _ ih => exact ih he
  | count _ _ hfound' _ ih =>
    rcases List.mem_cons.1 he with rfl | he
    · rw [hfound] at hfound'
      cases hfound'
    · exact ih he
  | other _ _ hfound' hend _ ih =>
    rcases List.mem_cons.1 he with rfl | he
    · exact hend (List.head?_eq_none_iff.1 (hfound'.symm.trans hfound))
    · exact ih he

end Reports

/-- Two errors of one line. -/
theorem Precedes.of_line (h : Precedes tokens e e') (horder : InOrder tokens)
    {before line after : List Token} (htokens : tokens = before ++ line ++ after)
    (hline : ∀ t ∈ line.dropLast, t.kind ≠ .lineEnd) (he : ∃ t ∈ line, e.found = some t)
    (he' : ∃ t ∈ line, e'.found = some t) : e.expectation = .count ∧ e'.expectation ≠ .count := by
  obtain ⟨front, t, between, back, heq, hfound, hfound', hsame⟩ := h
  obtain ⟨_, ht, h⟩ := he
  obtain rfl := Option.some.inj (hfound.symm.trans h)
  obtain ⟨t', ht', h⟩ := he'
  obtain ⟨back, rfl⟩ := List.head?_eq_some_iff.1 (hfound'.symm.trans h)
  refine hsame fun u hu => hline u ?_
  -- `u` does not start before the first of the two tokens, and it starts before the second
  have hall : InOrder (front ++ t :: between ++ t' :: back) := heq ▸ horder
  obtain ⟨hfront, -, hcross⟩ := List.pairwise_append.1 hall
  have hlt : u.offset < t'.offset := hcross u (List.mem_append_right _ hu) t' List.mem_cons_self
  have hle : t.offset ≤ u.offset := by
    rcases List.mem_cons.1 hu with rfl | hu
    · exact Nat.le_refl _
    · exact Nat.le_of_lt ((List.pairwise_cons.1 (List.pairwise_append.1 hfront).2.1).1 u hu)
  have hmem : u ∈ before ++ line ++ after :=
    htokens ▸ heq ▸ List.mem_append_left _ (List.mem_append_right _ hu)
  obtain ⟨hlines, -, hafter⟩ := List.pairwise_append.1 (htokens ▸ horder)
  obtain ⟨-, hline', hbefore⟩ := List.pairwise_append.1 hlines
  rcases List.mem_append.1 hmem with hmem | hmem
  · rcases List.mem_append.1 hmem with hmem | hmem
    · have := hbefore u hmem t ht
      omega
    · rcases List.eq_nil_or_concat line with rfl | ⟨words, last, rfl⟩
      · exact absurd hmem List.not_mem_nil
      rw [List.concat_eq_append] at hmem ht' hline' ⊢
      rw [List.dropLast_concat]
      rcases List.mem_append.1 hmem with hmem | hmem
      · exact hmem
      · -- the last token of the line does not start before another one
        have hlast : InOrder (words ++ [last]) := hline'
        have hle := hlast.le_getLast (List.getLast?_concat ..) ht'
        rw [List.mem_singleton.1 hmem] at hlt
        omega
  · have := hafter t' (List.mem_append_right _ ht') u hmem
    omega

end Parse

/-- At most two things, of which the first has a property that the second does not have. -/
theorem List.exists_options_of_pairwise {α : Type} {P : α → Prop} {l : List α}
    (h : l.Pairwise fun x y => P x ∧ ¬ P y) :
    ∃ a b : Option α, l = a.toList ++ b.toList ∧ (∀ x ∈ a, P x) ∧ ∀ x ∈ b, ¬ P x := by
  match l, h with
  | [], _ => exact ⟨none, none, rfl, nofun, nofun⟩
  | [x], _ =>
    by_cases hx : P x
    · exact ⟨some x, none, rfl, fun _ h => Option.some.inj h ▸ hx, nofun⟩
    · exact ⟨none, some x, rfl, nofun, fun _ h => Option.some.inj h ▸ hx⟩
  | [x, y], h =>
    obtain ⟨hx, hy⟩ := (List.pairwise_cons.1 h).1 y List.mem_cons_self
    exact ⟨some x, some y, rfl, fun _ h => Option.some.inj h ▸ hx,
      fun _ h => Option.some.inj h ▸ hy⟩
  | x :: y :: z :: l, h =>
    obtain ⟨hx, hl⟩ := List.pairwise_cons.1 h
    exact absurd ((List.pairwise_cons.1 hl).1 z List.mem_cons_self).1 (hx y List.mem_cons_self).2

namespace Parsing

variable {limit : Nat} {tokens : List Token}

/-- The course of a whole parse. -/
theorem exists_reports (limit : Nat) (tokens : List Token) : ∃ τ rest,
    Parse.Reports (kept tokens) .nothing (kept tokens) (ofTokens limit tokens).errors τ rest := by
  obtain ⟨es, τ, herrors, hreports, -⟩ :=
    (Parse.later_scene (kept tokens) .nothing ⟨max 1 limit, finishOf (kept tokens)⟩
      ⟨kept tokens, [], []⟩ ⟨List.suffix_rfl, .inr rfl⟩).exists_of
  have hes : (ofTokens limit tokens).errors = es := herrors
  exact ⟨τ, _, hes ▸ hreports⟩

/-- The end of the input comes after a token, the last one, and an error there is at its end. -/
theorem range_of_found_eq_none {e : ParseError} (he : e ∈ (ofTokens limit tokens).errors)
    (hfound : e.found = none) : ∃ last ∈ (kept tokens).getLast?,
      e.range = .emptyAt last.range.span.stop last.range.stop := by
  have hrange : e.range = finishOf (kept tokens) := by
    rw [show e.range = _ from isAt_of_mem_errors he, hfound]
    rfl
  obtain ⟨τ, rest, hreports⟩ := exists_reports limit tokens
  cases hlast : (kept tokens).getLast? with
  | some last => exact ⟨last, rfl, by rw [hrange, finishOf, hlast]⟩
  | none =>
    -- where nothing is given nothing is missing
    have hmissing := hreports.isMissing he hfound
    rw [List.getLast?_eq_none_iff.1 hlast] at hmissing
    rcases hmissing with h | ⟨-, _, -, before, k, title, h, -⟩
    · exact absurd (fun _ h => absurd h (Option.not_mem_none _)) h
    · simp at h

/-- An error of a token is where the token is. -/
theorem range_of_found {e : ParseError} (he : e ∈ (ofTokens limit tokens).errors) {t : Token}
    (hfound : e.found = some t) : e.range = t.range := by
  rw [show e.range = _ from isAt_of_mem_errors he, hfound]
  rfl

/-- An error is of a token, or else of the end of the input. -/
theorem exists_blamed {e : ParseError} (he : e ∈ (ofTokens limit tokens).errors) :
    (∃ t ∈ kept tokens, e.found = some t ∧ e.foundName = t.kind.name ∧ e.range = t.range) ∨
      ∃ last ∈ (kept tokens).getLast?, e.found = none ∧ e.foundName = "EOF" ∧
        e.range = .emptyAt last.range.span.stop last.range.stop := by
  obtain ⟨τ, rest, hreports⟩ := exists_reports limit tokens
  obtain ⟨between, after, hafter, hfound, -⟩ := hreports.exists_found he
  cases after with
  | nil =>
    obtain ⟨last, hlast, hend⟩ := range_of_found_eq_none he hfound
    exact .inr ⟨last, hlast, hfound, by rw [ParseError.foundName, hfound]; rfl, hend⟩
  | cons t after =>
    have ht : t ∈ kept tokens := hafter ▸ List.mem_append_right _ List.mem_cons_self
    exact .inl ⟨t, ht, hfound, by rw [ParseError.foundName, hfound]; rfl, range_of_found he hfound⟩

/-- Of two errors that stand one before the other, the first one is of a token,
    and it is further up. -/
theorem lt_of_precedes {e e' : ParseError}
    (hspans : ∀ t ∈ tokens, t.range.span.start < t.range.span.stop) (horder : InOrder (kept tokens))
    (he : e ∈ (ofTokens limit tokens).errors) (he' : e' ∈ (ofTokens limit tokens).errors)
    (h : Parse.Precedes (kept tokens) e e') :
    e.found ≠ none ∧ e.found ≠ e'.found ∧ e.range.span.start < e'.range.span.start := by
  obtain ⟨front, t, between, after, hall, hfound, hfound', -⟩ := h
  have hstart : e.range.span.start = t.offset := by rw [range_of_found he hfound, Token.offset]
  have hkept : InOrder (front ++ t :: between ++ after) := hall ▸ horder
  have ht : t ∈ front ++ t :: between := List.mem_append_right _ List.mem_cons_self
  cases after with
  | cons t' after =>
    have hlt := (List.pairwise_append.1 hkept).2.2 t ht t' List.mem_cons_self
    refine ⟨hfound ▸ Option.some_ne_none t, fun h => ?_, ?_⟩
    · rw [hfound, hfound'] at h
      rw [Option.some.inj h] at hlt
      exact absurd hlt (Nat.lt_irrefl _)
    · rwa [hstart, range_of_found he' hfound']
  | nil =>
    -- the end of the input is behind all tokens, as the last of them has characters
    obtain ⟨last, hlast, hend⟩ := range_of_found_eq_none he' hfound'
    refine ⟨hfound ▸ Option.some_ne_none t, by rw [hfound, hfound']; exact Option.some_ne_none t,
      ?_⟩
    have hle : t.offset ≤ last.offset :=
      horder.le_getLast hlast (by rw [hall]; exact List.mem_append_left _ ht)
    have hspan := hspans last (List.mem_of_mem_filter (List.mem_of_getLast? hlast))
    rw [hstart, hend]
    exact Nat.lt_of_le_of_lt hle hspan

/-- Errors are reported in the order of the source, of tokens or, last, of the end of the
    input. Of the tokens of a line at most two are blamed: a number that is no count, and
    behind it something else. -/
theorem ofTokens_blames (limit : Nat) (tokens : List Token)
    (hspans : ∀ t ∈ tokens, t.range.span.start < t.range.span.stop) (horder : InOrder tokens) :
    let kept := tokens.filter (!·.kind.isSkipped)
    let errors := (ofTokens limit tokens).errors
    (∀ e ∈ errors,
      (∃ t ∈ kept, e.found = some t ∧ e.foundName = t.kind.name ∧ e.range = t.range) ∨
        ∃ last ∈ kept.getLast?, e.found = none ∧ e.foundName = "EOF" ∧
          e.range = .emptyAt last.range.span.stop last.range.stop) ∧
      errors.Pairwise (fun e e' => e.found ≠ none ∧ e.found ≠ e'.found ∧
        e.range.span.start < e'.range.span.start) ∧
      ∀ before line after, kept = before ++ line ++ after →
        (∀ t ∈ line.dropLast, t.kind ≠ .lineEnd) →
          ∃ count other : Option ParseError,
            errors.filter (fun e => ∃ t ∈ line, e.found = some t) = count.toList ++ other.toList ∧
              (∀ e ∈ count, e.expectation = .count) ∧ ∀ e ∈ other, e.expectation ≠ .count := by
  intro kept errors
  obtain ⟨τ, rest, hreports⟩ := exists_reports limit tokens
  have hkept : InOrder kept := horder.sublist List.filter_sublist
  refine ⟨fun e he => exists_blamed he, ?_, fun before line after hlines hline => ?_⟩
  · exact hreports.pairwise.imp_of_mem fun he he' h => lt_of_precedes hspans hkept he he' h
  -- of two errors on a line, the first blames a number and the second something else
  · refine List.exists_options_of_pairwise ?_
    refine (hreports.pairwise.filter _).imp_of_mem fun he he' h => ?_
    exact h.of_line hkept hlines hline (by simpa using (List.mem_filter.1 he).2)
      (by simpa using (List.mem_filter.1 he').2)

/-- A line with two errors, a number that is no count and a comma, and a page without a title. -/
theorem ofTokens_blames_number :
    let token (kind : TokenKind) (image : String) (start : Nat) : Token :=
      ⟨kind, image, ⟨⟨start, start + image.length⟩, ⟨1, start + 1⟩, ⟨1, start + image.length + 1⟩⟩⟩
    let line := [token .number "99" 13, token .comma "," 15, token .lineEnd "\n" 16]
    let before := [token (.keyword .page) "Page:" 0, token .freeText "A" 5, token .lineEnd "\n" 6,
      token (.keyword .block) "Block" 7, token .lineEnd "\n" 12]
    let after := [token (.keyword .page) "Page:" 17]
    let tokens := before ++ line ++ after
    (∀ t ∈ tokens, t.range.span.start < t.range.span.stop) ∧ InOrder tokens ∧
      (ofTokens 9 tokens).errors.map ParseError.found =
        [some (token .number "99" 13), some (token .comma "," 15), none] ∧
      ∃ count other : Option ParseError,
        (ofTokens 9 tokens).errors.filter (fun e => ∃ t ∈ line, e.found = some t) =
            count.toList ++ other.toList ∧
          (∀ e ∈ count, e.expectation = .count) ∧ ∀ e ∈ other, e.expectation ≠ .count := by
  intro token line before after tokens
  have hspans : ∀ t ∈ tokens, t.range.span.start < t.range.span.stop := by decide
  have horder : InOrder tokens := by unfold InOrder; decide
  exact ⟨hspans, horder, by decide +kernel,
    (ofTokens_blames 9 tokens hspans horder).2.2 before line after rfl (by decide)⟩

end Parsing

end Wireframe
