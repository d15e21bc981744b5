import Mathlib.Logic.ExistsUnique
import Wireframe.Proofs.Grammar.Acceptance
import Wireframe.Proofs.Grammar.Blame

/-!
# The first error

A parser that looks one token ahead could notice an error late, after it has gone wrong, or blame
tokens that other ones could still have justified. This one does neither: the first error is exactly
where the tokens stop being the beginning of a scene, and whatever it says was expected there would
have continued one (`Parsing.existsUnique_isPlaced`).
-/

namespace Wireframe

namespace Parsing

open Stage

variable {limit : Nat} {tokens : List Token} {e : ParseError}

/-- What is left out is never expected. -/
theorem isSkipped_of_mem_kinds {e : Expectation} {kind : TokenKind} (h : kind ∈ e.kinds) :
    kind.isSkipped = false := by
  revert kind
  cases e <;> decide

/-- An error has the range of the token that it blames, or else is at the end of the input. -/
theorem isAt_of_mem_errors (he : e ∈ (ofTokens limit tokens).errors) :
    e.IsAt (finishOf (kept tokens)) := by
  obtain ⟨read, reported, -, hreported, hat, -⟩ :=
    (inferInstance : Parse.Built Parse.scene).leads ⟨max 1 limit, finishOf (kept tokens)⟩
      ⟨kept tokens, [], []⟩
  exact hat e (by rwa [ofTokens_eq, hreported] at he)

/-- A parse with an error blames the first one where the tokens go wrong; one without leads to the
    beginning of a line. -/
theorem tracked (limit : Nat) (tokens : List Token) :
    ((ofTokens limit tokens).errors = [] ∧
        ∃ place, (line .outside).run? (kept tokens) = some (line place)) ∨
      ∃ e more, (ofTokens limit tokens).errors = e :: more ∧
        (line .outside).Blames (kept tokens) e := by
  let ctx : ParseContext := ⟨max 1 limit, finishOf (kept tokens)⟩
  let s : Cursor := ⟨kept tokens, [], []⟩
  have h : Parse.Tracked (line .outside) (fun _ υ rest => (∃ place, υ = line place) ∧ rest = []) s
    (Parse.scene ctx s) := Parse.tracked_scene (isHalted_start limit rfl)
  rw [ofTokens_eq]
  rcases h with ⟨x, read, τ, -, herrors, hrest, hread, ⟨place, rfl⟩, hnil⟩ |
    ⟨e, more, herrors, hblames⟩
  · refine .inl ⟨herrors, place, ?_⟩
    rw [show kept tokens = read by simpa [hnil] using hrest]
    exact hread
  · exact .inr ⟨e, more, herrors, hblames⟩

/-- What a parse accepts leads from the first line of a scene to the beginning of another one. -/
theorem errors_eq_nil_iff_run (limit : Nat) (tokens : List Token) :
    (ofTokens limit tokens).errors = [] ↔
      ∃ place, (line .outside).run? (kept tokens) = some (line place) := by
  rcases tracked limit tokens with ⟨hnil, hrun⟩ | ⟨e, more, herrors, hblames⟩
  · exact iff_of_true hnil hrun
  · refine iff_of_false (by rw [herrors]; exact List.cons_ne_nil _ _) ?_
    rintro ⟨place, hrun⟩
    exact hblames.run?_ne place hrun

/-- Some tokens can be continued to a sentence. -/
def BeginsScene (limit : Nat) (tokens : List Token) : Prop :=
  ∃ more : List Token, (∀ t ∈ more, t.kind.isSkipped = false) ∧
    (ofTokens limit (tokens ++ more)).errors = []

/-- Tokens that lead to a stage can be continued, as a scene can be ended there. -/
theorem beginsScene_of_run {τ : Stage} (h : (line .outside).run? (kept tokens) = some τ)
    (limit : Nat) : BeginsScene limit tokens := by
  obtain ⟨more, hmore, place, hrun⟩ := τ.exists_run?_line
  refine ⟨more, hmore, (errors_eq_nil_iff_run limit _).2 ⟨place, ?_⟩⟩
  rw [kept_append, run?_append, h, kept_eq_self hmore]
  exact hrun

/-- One more token after tokens that lead to a stage. -/
theorem run?_kept_concat {read : List Token} {τ : Stage} {t : Token}
    (h : (line .outside).run? (kept read) = some τ) (ht : t.kind.isSkipped = false)
    (more : List Token) : (line .outside).run? (kept (read ++ [t] ++ more)) =
      (τ.step? t).bind (·.run? (kept more)) := by
  have hshown : kept [t] = [t] := kept_eq_self fun t' ht' => List.mem_singleton.1 ht' ▸ ht
  rw [kept_append, kept_append, hshown, run?_append, run?_append, h, Option.bind_some, run?_cons]
  cases τ.step? t <;> rfl

/-- A token that cannot come next is in no scene, whatever comes after it. -/
theorem errors_ne_nil_of_step {read : List Token} {τ : Stage} {t : Token}
    (h : (line .outside).run? (kept read) = some τ) (ht : t.kind.isSkipped = false)
    (hnone : τ.step? t = none) (limit : Nat) (more : List Token) :
    (ofTokens limit (read ++ [t] ++ more)).errors ≠ [] := by
  rw [ne_eq, errors_eq_nil_iff_run, run?_kept_concat h ht, hnone]
  exact fun ⟨_, h⟩ => nomatch h

/-- What a stage expects can come next, if a number is a count. -/
theorem beginsScene_of_expects {read : List Token} {τ : Stage} {t : Token}
    (h : (line .outside).run? (kept read) = some τ) {e : Expectation} (hexpects : τ.Expects e)
    (ht : t.kind ∈ e.kinds) (hcount : t.kind = .number → (smallNumber? t.chars).isSome = true)
    (limit : Nat) : BeginsScene limit (read ++ [t]) := by
  obtain ⟨υ, hυ⟩ := Option.isSome_iff_exists.1 (hexpects t.kind ht)
  have husable : t.isUsable = true := by
    rw [Token.isUsable, Token.count?]
    cases hkind : t.kind with
    | number => exact hcount hkind
    | _ => rfl
  have hstep : τ.step? t = some υ := by rw [step?, if_pos husable, hυ]
  refine beginsScene_of_run (τ := υ) ?_ limit
  rw [← List.append_nil (read ++ [t]), run?_kept_concat h (isSkipped_of_mem_kinds ht), hstep]
  rfl

/-- The first `i` of some tokens are the beginning of a scene, but what comes after them is not part
    of any: there the error stands. -/
structure IsPlaced (limit : Nat) (tokens : List Token) (e : ParseError) (i : Nat) : Prop where
  le : i ≤ tokens.length
  /-- The token that is blamed, or the end of the input. -/
  found : e.found = tokens[i]?
  range : e.range = (tokens[i]?.map Token.range).getD (finishOf tokens)
  before : BeginsScene limit (tokens.take i)
  beyond : i < tokens.length → ∀ more, (ofTokens limit (tokens.take (i + 1) ++ more)).errors ≠ []
  /-- Each kind that is named continues a scene; a number must be a count. -/
  expected : ∀ kind ∈ e.expectation.kinds, ∀ t : Token, t.kind = kind →
    (kind = .number → (smallNumber? t.chars).isSome = true) →
      BeginsScene limit (tokens.take i ++ [t])

/-- There is one place at most where an error can stand. -/
theorem IsPlaced.le_of_isPlaced {e' : ParseError} {i j : Nat} (h : IsPlaced limit tokens e i)
    (h' : IsPlaced limit tokens e' j) : j ≤ i := by
  by_contra hlt
  rw [Nat.not_le] at hlt
  obtain ⟨more, -, hmore⟩ := h'.before
  -- the tokens before the later place go on after the earlier one
  obtain ⟨between, hbetween⟩ : ∃ between, tokens.take j = tokens.take (i + 1) ++ between :=
    ⟨(tokens.take j).drop (i + 1), by
      rw [← List.take_append_drop (i + 1) (tokens.take j), List.take_take, Nat.min_eq_left hlt,
        List.drop_left' (by simp; have := h'.le; omega)]⟩
  refine h.beyond (Nat.lt_of_lt_of_le hlt h'.le) (between ++ more) ?_
  rw [← List.append_assoc, ← hbetween]
  exact hmore

theorem exists_isPlaced (hkept : ∀ t ∈ tokens, t.kind.isSkipped = false)
    (he : (ofTokens limit tokens).errors.head? = some e) : ∃ i, IsPlaced limit tokens e i := by
  rcases tracked limit tokens with ⟨hnil, -⟩ | ⟨e', more, herrors, hblames⟩
  · rw [hnil] at he
    cases he
  obtain rfl : e' = e := by
    rw [herrors] at he
    exact Option.some.inj he
  have hat : e'.IsAt (finishOf tokens) := by
    have hat : e'.IsAt (finishOf (kept tokens)) :=
      isAt_of_mem_errors (herrors ▸ List.mem_cons_self)
    rwa [kept_eq_self hkept] at hat
  rw [kept_eq_self hkept] at hblames
  -- the error stands after the tokens that lead to the stage at which it is reported
  obtain ⟨read, rest, τ, rfl, hread, hfound, hrefuses, hexpects⟩ := hblames
  have hread' : (line .outside).run? (kept read) = some τ := by
    rwa [kept_eq_self fun t ht => hkept t (List.mem_append_left _ ht)]
  have hnext : (read ++ rest)[read.length]? = rest.head? := by
    rw [List.getElem?_append_right (Nat.le_refl _), Nat.sub_self, List.head?_eq_getElem?]
  refine ⟨read.length, ?_, ?_, ?_, ?_, fun hlt more => ?_, fun kind hkind t ht hcount => ?_⟩
  · rw [List.length_append]
    exact Nat.le_add_right _ _
  · rw [hnext, hfound]
  · rw [hnext, ← hfound]
    exact hat
  · rw [List.take_left]
    exact beginsScene_of_run hread' limit
  · cases rest with
    | nil => simp at hlt
    | cons t rest =>
      have hnone : τ.step? t = none := by rwa [hfound] at hrefuses
      have ht := hkept t (List.mem_append_right _ List.mem_cons_self)
      rw [List.take_length_add_append, List.take_succ_cons, List.take_zero]
      exact errors_ne_nil_of_step hread' ht hnone limit more
  · subst ht
    rw [List.take_left]
    exact beginsScene_of_expects hread' hexpects hkind hcount limit

/-- The first error of a parse is at the one place where it should be. -/
theorem existsUnique_isPlaced (hkept : ∀ t ∈ tokens, t.kind.isSkipped = false)
    (he : (ofTokens limit tokens).errors.head? = some e) : ∃! i, IsPlaced limit tokens e i := by
  obtain ⟨i, hi⟩ := exists_isPlaced hkept he
  exact ⟨i, hi, fun j hj => Nat.le_antisymm (hi.le_of_isPlaced hj) (hj.le_of_isPlaced hi)⟩

/-- A button straight after the first line of a page: there must be a block before it. -/
theorem existsUnique_isPlaced_button :
    let tokens : List Token := [⟨.keyword .page, "Page:", .origin⟩, ⟨.freeText, "A", .origin⟩,
      ⟨.lineEnd, "\n", .origin⟩, ⟨.keyword .button, "Button", .origin⟩]
    let e : ParseError :=
      ⟨.block, some ⟨.keyword .button, "Button", .origin⟩, .origin, [.scene, .page]⟩
    (∀ t ∈ tokens, t.kind.isSkipped = false) ∧ (ofTokens 1 tokens).errors.head? = some e ∧
      ∃! i, IsPlaced 1 tokens e i := by
  have hkept : ∀ t ∈ [⟨.keyword .page, "Page:", .origin⟩, ⟨.freeText, "A", .origin⟩,
      ⟨.lineEnd, "\n", .origin⟩, (⟨.keyword .button, "Button", .origin⟩ : Token)],
      t.kind.isSkipped = false := by decide
  exact ⟨hkept, by decide +kernel, existsUnique_isPlaced hkept (by decide +kernel)⟩

end Parsing

end Wireframe
