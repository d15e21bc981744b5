import Wireframe.Proofs.Grammar.Limit
import Wireframe.Proofs.Grammar.Path

/-!
# Progress

A loop of the grammar is left for one of three reasons (`Parse.IsLeft`): no token is left, the limit
on errors is reached, or the next token is one that stops the loop. `Parse.loop` is left for a
fourth one, which is what lets it be defined at all: a turn that reads nothing is the last one. With
a rule that gives up without reading, and is tried again at the same token, a loop with the three
reasons alone would never come to its end.

There is no such rule where a turn can begin (`Parse.Advances`), so the fourth
reason makes no difference:

* `Parse.Turns`: the turns of a loop that is left for the three reasons alone.
* `Parse.Completes`: these turns come to an end after at most as many as there are tokens, and they
  are what the loop does. `Parse.IsLoop.completes`: so it is for each loop of the grammar.
* `Parse.repeatAt_nextName`: the names of an alignment are no such loop, and go on after a
  comma, which is always read.
* `Parsing.ofTokens_progress`: what this means for the parse of a scene.
-/

namespace Wireframe

/-- From one cursor to another at least one token is read. -/
def Cursor.MovesTo (s s' : Cursor) : Prop :=
  ∃ read, read ≠ [] ∧ s.rest = read ++ s'.rest

theorem Cursor.MovesTo.length_lt {s s' : Cursor} (h : s.MovesTo s') :
    s'.rest.length < s.rest.length := by
  obtain ⟨read, hread, hrest⟩ := h
  rw [hrest, List.length_append]
  exact Nat.lt_add_of_pos_left (List.length_pos_iff.2 hread)

namespace Parse

variable {α β : Type} {stops : TokenKind → Bool} {body : TokenKind → Parse α} {ctx : ParseContext}
  {s s' : Cursor}

/-! ## The turns of a loop -/

/-- A loop is left at the end of the input, at the limit on errors, and at a token that stops it. -/
def IsLeft (stops : TokenKind → Bool) (ctx : ParseContext) (s : Cursor) : Prop :=
  s.rest = [] ∨ isHalted ctx s = true ∨ ∃ t ∈ s.rest.head?, stops t.kind = true

/-- The turns of a loop from a cursor on, until it is left: how many there are, what they give, and
    the cursor in the end. -/
inductive Turns (stops : TokenKind → Bool) (body : TokenKind → Parse α) (ctx : ParseContext) :
    Cursor → Nat → List α → Cursor → Prop
  | leave {s : Cursor} : IsLeft stops ctx s → Turns stops body ctx s 0 [] s
  | turn {s s' : Cursor} {t : Token} {n : Nat} {xs : List α} :
    ¬ IsLeft stops ctx s → t ∈ s.rest.head? → Turns stops body ctx (body t.kind ctx s).2 n xs s' →
      Turns stops body ctx s (n + 1) ((body t.kind ctx s).1.toList ++ xs) s'

/-- A loop of which every turn reads something. -/
def Advances (stops : TokenKind → Bool) (body : TokenKind → Parse α) : Prop :=
  ∀ ctx s t, ¬ IsLeft stops ctx s → t ∈ s.rest.head? → s.MovesTo (body t.kind ctx s).2

/-- A loop that comes to an end by itself. -/
structure Completes (stops : TokenKind → Bool) (body : TokenKind → Parse α) : Prop where
  advances : Advances stops body
  exists_turns : ∀ ctx s, ∃ n xs s', Turns stops body ctx s n xs s' ∧
    n + s'.rest.length ≤ s.rest.length
  turns_iff : ∀ {ctx s xs s'}, (∃ n, Turns stops body ctx s n xs s') ↔
    loop stops body ctx s = (some xs, s')

/-- Where a loop is not left, the limit is not reached and the next token does not stop the loop. -/
theorem exists_rest_of_not_isLeft (h : ¬ IsLeft stops ctx s) {t : Token} (ht : t ∈ s.rest.head?) :
    ∃ rest, s.rest = t :: rest ∧ isHalted ctx s = false ∧ stops t.kind = false := by
  obtain ⟨rest, hs⟩ := List.head?_eq_some_iff.1 ht
  simp only [IsLeft, not_or, Bool.not_eq_true] at h
  obtain ⟨-, hhalt, hstops⟩ := h
  exact ⟨rest, hs, hhalt, Bool.not_eq_true _ ▸ fun hstop => hstops ⟨t, ht, hstop⟩⟩

theorem not_isLeft {t : Token} {rest : List Token} (hs : s.rest = t :: rest)
    (hhalt : isHalted ctx s = false) (hstops : stops t.kind = false) : ¬ IsLeft stops ctx s := by
  rintro (h | h | ⟨t', ht', h⟩)
  · cases hs.symm.trans h
  · cases hhalt.symm.trans h
  · rw [hs] at ht'
    obtain rfl := Option.some.inj ht'
    cases hstops.symm.trans h

theorem loop_of_isLeft (h : IsLeft stops ctx s) : loop stops body ctx s = (some [], s) := by
  rcases hs : s.rest with _ | ⟨t, rest⟩
  · exact loop_end hs
  · refine loop_stop hs ?_
    rcases h with h | h | ⟨t', ht', h⟩
    · cases hs.symm.trans h
    · exact .inl h
    · rw [hs] at ht'
      exact .inr (Option.some.inj ht' ▸ h)

/-- What a loop gives after a turn that reads something. -/
theorem loop_of_turn (hadv : Advances stops body) (h : ¬ IsLeft stops ctx s) {t : Token}
    (ht : t ∈ s.rest.head?) {xs : List α}
    (hrest : loop stops body ctx (body t.kind ctx s).2 = (some xs, s')) :
    loop stops body ctx s = (some ((body t.kind ctx s).1.toList ++ xs), s') := by
  obtain ⟨rest, hs, hhalt, hstops⟩ := exists_rest_of_not_isLeft h ht
  rw [loop_step hs hhalt hstops (hadv ctx s t h ht).length_lt, andThen, attempt]
  dsimp only
  rw [andThen_some hrest]
  rfl

/-- The turns of a loop are what the loop does. -/
theorem Turns.loop_eq (hadv : Advances stops body) {n : Nat} {xs : List α}
    (h : Turns stops body ctx s n xs s') : loop stops body ctx s = (some xs, s') := by
  induction h with
  | leave hleft => exact loop_of_isLeft hleft
  | turn hleft ht _ ih => exact loop_of_turn hadv hleft ht ih

/-- Each turn of a loop takes a token, so the turns come to an end. -/
theorem Advances.exists_turns (hadv : Advances stops body) (ctx : ParseContext) (s : Cursor) :
    ∃ n xs s', Turns stops body ctx s n xs s' ∧ n + s'.rest.length ≤ s.rest.length := by
  induction s using loop_induction stops body ctx with
  | nil s hs => exact ⟨0, [], s, .leave (.inl hs), by omega⟩
  | stop s t rest hs hstop =>
    have ht : t ∈ s.rest.head? := by rw [hs]; rfl
    have hleft : IsLeft stops ctx s := .inr (hstop.imp_right fun h => ⟨t, ht, h⟩)
    exact ⟨0, [], s, .leave hleft, by omega⟩
  | turn s t rest hs hhalt hstops ih =>
    have ht : t ∈ s.rest.head? := by rw [hs]; rfl
    have hleft := not_isLeft hs hhalt hstops
    have hlt := (hadv ctx s t hleft ht).length_lt
    obtain ⟨n, xs, s', hturns, hle⟩ := ih hlt
    exact ⟨n + 1, _, s', .turn hleft ht hturns, by omega⟩

/-- A loop of which every turn reads something comes to an end by itself. -/
theorem Advances.completes (hadv : Advances stops body) : Completes stops body where
  advances := hadv
  exists_turns := hadv.exists_turns
  turns_iff {ctx s xs s'} := by
    refine ⟨fun ⟨_, h⟩ => h.loop_eq hadv, fun h => ?_⟩
    obtain ⟨n, ys, s'', hturns, -⟩ := hadv.exists_turns ctx s
    obtain ⟨hxs, rfl⟩ := Prod.mk.inj ((hturns.loop_eq hadv).symm.trans h)
    exact ⟨n, Option.some.inj hxs ▸ hturns⟩

/-! ## The loops of the grammar -/

/-- What proceeds by its account reads something at each turn. -/
theorem Proceeds.advances {K : α → List Token → Prop} (h : Proceeds K stops body) :
    Advances stops body := by
  intro ctx s t hleft ht
  obtain ⟨rest, hs, hhalt, hstops⟩ := exists_rest_of_not_isLeft hleft ht
  obtain ⟨⟨read, -, hrest, -⟩, hlt⟩ := h ctx s t rest hs hhalt hstops
  refine ⟨read, ?_, hrest⟩
  rintro rfl
  exact absurd hlt (by rw [hrest]; exact Nat.lt_irrefl _)

/-- The loops of the grammar, by the rules that they are in: the tokens that stop a loop, and what
    one of its turns parses. -/
inductive IsLoop : {α β : Type} → Parse β → (TokenKind → Bool) → (TokenKind → Parse α) → Prop
  | scene : IsLoop Parse.scene (fun _ => false) sceneLine
  | page : IsLoop Parse.page TokenKind.startsPage fun kind =>
      if kind = .keyword .blocks || kind = .keyword .block || kind = .lineEnd then blocksOrNone
      else refuseLine .block
  | blocks : IsLoop Parse.blocks TokenKind.endsBlocks blockLine
  | block : IsLoop Parse.block TokenKind.endsBlock fun kind =>
      if kind.startsElements then elementsOrNone else refuseLine .blockContent
  | elements : IsLoop Parse.elements TokenKind.endsElements elementLine
  | list : IsLoop Parse.list (!·.startsItem) fun _ => item

/-- A parse that comes to a loop, in itself or in what it goes on with, whatever came out before. -/
inductive Contains (stops : TokenKind → Bool) (body : TokenKind → Parse α) :
    {β : Type} → Parse β → Prop
  | loop : Contains stops body (Parse.loop stops body)
  | first {β γ : Type} {p : Parse β} {f : β → Parse γ} :
    Contains stops body p → Contains stops body (andThen p f)
  | after {β γ : Type} {p : Parse β} {f : β → Parse γ} :
    (∀ x, Contains stops body (f x)) → Contains stops body (andThen p f)
  | orSkipLine {β : Type} {p : Parse β} :
    Contains stops body p → Contains stops body (Parse.orSkipLine p)
  | within {β : Type} {p : Parse β} (rule : Rule) :
    Contains stops body p → Contains stops body (Parse.within rule p)

theorem IsLoop.contains {p : Parse β} (h : IsLoop p stops body) : Contains stops body p := by
  cases h with
  | scene => exact .within _ (.first .loop)
  | page | blocks | block | elements => exact .within _ (.after fun _ => .first .loop)
  | list =>
    exact .within _ <| .orSkipLine <| .after fun _ => .after fun _ => .after fun _ =>
      .after fun _ => .after fun _ => .first .loop

/-- Every loop of the grammar comes to an end by itself: each of its turns reads a whole line, a
    group that begins with the next token, or a line end. -/
theorem IsLoop.completes {p : Parse β} (h : IsLoop p stops body) : Completes stops body := by
  cases h with
  | scene => exact proceeds_sceneLine.advances.completes
  | page => exact proceeds_blocksOrNone.advances.completes
  | blocks => exact proceeds_blockLine.advances.completes
  | block => exact proceeds_elementsOrNone.advances.completes
  | elements => exact proceeds_elementLine.advances.completes
  | list => exact proceeds_item.advances.completes

/-- Where names go on, the comma is read, and the others come after it. -/
theorem repeatAt_nextName (hs : s.rest.head?.map Token.kind = some .comma) :
    s.MovesTo (nextName ctx s).2 ∧
      repeatAt .comma nextName ctx s =
        andThen nextName
          (fun x => andThen (repeatAt .comma nextName) fun xs => give (x :: xs)) ctx s := by
  obtain ⟨t, rest, hrest, -⟩ := List.exists_cons_of_head?_map hs
  -- what comes after the comma starts behind it
  obtain ⟨read, -, hread, -⟩ :
      Cursor.Leads ctx.finish { s with rest := rest } (nextName ctx s).2 := by
    rw [nextName, bind_eq, andThen_some (next_cons hrest ctx)]
    exact Built.leads inferInstance ctx _
  have hmoves : s.MovesTo (nextName ctx s).2 :=
    ⟨t :: read, List.cons_ne_nil _ _, by rw [hrest, List.cons_append, ← hread]⟩
  refine ⟨hmoves, repeatAt_step hs fun x s' hx => ?_⟩
  rw [hx] at hmoves
  exact hmoves.length_lt

theorem IsRule.built {rule : Rule} {p : Parse α} (h : IsRule rule p) : Built p := by
  cases h <;> infer_instance

theorem Built.rest_isSuffix {p : Parse α} (h : Built p) (ctx : ParseContext) (s : Cursor) :
    (p ctx s).2.rest <:+ s.rest := by
  obtain ⟨read, -, hrest, -⟩ := h.leads ctx s
  exact ⟨read, hrest.symm⟩

end Parse

namespace Parsing

theorem length_errors_le_limit (limit : Nat) (tokens : List Token) :
    (ofTokens limit tokens).errors.length ≤ max 1 limit := by
  rw [(ofTokens_truncates tokens (Nat.le_refl (max 1 limit))).1]
  exact List.length_take_le _ _

/-- A parse always makes progress and stops for a reason. Every loop comes to an end without
    being cut off, as each turn reads something, and so do the names of an alignment; no rule
    goes back or past the end. The scene is left at the end of the tokens, or else with as many
    errors as the limit allows. -/
theorem ofTokens_progress (limit : Nat) (tokens : List Token) :
    (∀ {α β : Type} (p : Parse β) (stops : TokenKind → Bool) (body : TokenKind → Parse α),
      Parse.IsLoop p stops body → Parse.Contains stops body p ∧ Parse.Completes stops body) ∧
      (∀ ctx (s : Cursor), s.rest.head?.map Token.kind = some .comma →
        s.MovesTo (Parse.nextName ctx s).2 ∧
          Parse.repeatAt .comma Parse.nextName ctx s =
            Parse.andThen Parse.nextName
              (fun x => Parse.andThen (Parse.repeatAt .comma Parse.nextName)
              fun xs => Parse.give (x :: xs)) ctx s) ∧
      (∀ {α : Type} (rule : Rule) (p : Parse α), Parse.IsRule rule p →
        ∀ ctx s, (p ctx s).2.rest <:+ s.rest) ∧
      ∃ x s', Parse.scene ⟨max 1 limit, finishOf (kept tokens)⟩ ⟨kept tokens, [], []⟩ =
        (some x, s') ∧ ofTokens limit tokens = ⟨x, s'.errors⟩ ∧
        (s'.rest = [] ∨ s'.errors.length = max 1 limit) := by
  refine ⟨fun _ _ _ h => ⟨h.contains, h.completes⟩, fun _ _ hs => Parse.repeatAt_nextName hs,
    fun _ _ h ctx s => h.built.rest_isSuffix ctx s, ?_⟩
  have hle := length_errors_le_limit limit tokens
  obtain ⟨⟨x, hx⟩, hstops⟩ :=
    Parse.scene_stops ⟨max 1 limit, finishOf (kept tokens)⟩ ⟨kept tokens, [], []⟩
  refine ⟨x, _, Prod.ext hx rfl, ?_, hstops.imp_right fun hhalt => ?_⟩
  · rw [ofTokens_eq, hx]
    rfl
  · exact Nat.le_antisymm hle (of_decide_eq_true hhalt)

/-- Of three lines that are no pages, a limit of two leaves the last one unread. -/
theorem ofTokens_progress_commas :
    let bad : List Token := [⟨.comma, ",", .origin⟩, ⟨.lineEnd, "\n", .origin⟩]
    let tokens := bad ++ bad ++ bad
    Parse.IsLoop Parse.scene (fun _ => false) Parse.sceneLine ∧
      Parse.Completes (fun _ => false) Parse.sceneLine ∧
      bad.head?.map Token.kind = some .comma ∧
      Cursor.MovesTo ⟨bad, [], []⟩ (Parse.nextName ⟨1, .origin⟩ ⟨bad, [], []⟩).2 ∧
      Parse.IsRule .scene Parse.scene ∧
      (Parse.scene ⟨2, .origin⟩ ⟨tokens, [], []⟩).2.rest <:+ tokens ∧
      (Parse.scene ⟨2, .origin⟩ ⟨tokens, [], []⟩).2.rest = bad ∧
      ∃ x s', Parse.scene ⟨2, finishOf (kept tokens)⟩ ⟨kept tokens, [], []⟩ = (some x, s') ∧
        ofTokens 2 tokens = ⟨x, s'.errors⟩ ∧ (s'.rest = [] ∨ s'.errors.length = 2) := by
  intro bad tokens
  obtain ⟨hloops, hnames, hrules, hscene⟩ := ofTokens_progress 2 tokens
  exact ⟨.scene, (hloops _ _ _ .scene).2, rfl, (hnames _ ⟨bad, [], []⟩ rfl).1, .scene,
    hrules .scene Parse.scene .scene _ _, by decide +kernel, hscene⟩

end Parsing

end Wireframe
