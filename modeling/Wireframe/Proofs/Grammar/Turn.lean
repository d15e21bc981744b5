import Wireframe.Grammar.Parse

/-!
# Turn by turn

A rule that goes on from line to line, or from name to name, is a `loop` or a `repeatAt` over some
body. Here is what one turn of either does, and the induction on the turns. A turn that reads
nothing is the last one, so the tokens that are left count the turns; but the next turn starts where
the body has left the cursor, and from there nothing need be said of how many tokens those are.
-/

namespace Wireframe

namespace Parse

variable {α : Type}

/-! ## Loops -/

section Loop

variable {stops : TokenKind → Bool} {body : TokenKind → Parse α} {ctx : ParseContext} {s : Cursor}

theorem loop_end (hs : s.rest = []) : loop stops body ctx s = (some [], s) := by
  rw [loop, hs]
  rfl

theorem loop_stop {t : Token} {rest : List Token} (hs : s.rest = t :: rest)
    (h : isHalted ctx s = true ∨ stops t.kind = true) : loop stops body ctx s = (some [], s) := by
  rw [loop, hs]
  simp only [List.head?_cons]
  rw [if_pos (by simpa using h)]

/-- A loop that goes on: a turn, and the others if it reads anything. -/
theorem loop_turn {t : Token} {rest : List Token} (hs : s.rest = t :: rest)
    (hhalt : isHalted ctx s = false) (hstops : stops t.kind = false) :
    loop stops body ctx s =
      if (body t.kind ctx s).2.rest.length < s.rest.length then
        (some ((body t.kind ctx s).1.toList ++
          (loop stops body ctx (body t.kind ctx s).2).1.getD []),
          (loop stops body ctx (body t.kind ctx s).2).2)
      else (some (body t.kind ctx s).1.toList, (body t.kind ctx s).2) := by
  rw [loop]
  simp only [hs, List.head?_cons, hhalt, hstops, Bool.or_self, Bool.false_eq_true, if_false]

variable (stops body ctx)

variable (s) in
theorem loop_isSome : ∃ xs s', loop stops body ctx s = (some xs, s') := by
  rw [loop]
  split
  · exact ⟨_, _, rfl⟩
  · split
    · exact ⟨_, _, rfl⟩
    · dsimp only
      split <;> exact ⟨_, _, rfl⟩

/-- Induction on the turns of a loop. -/
@[elab_as_elim]
theorem loop_induction {motive : Cursor → Prop} (nil : ∀ s : Cursor, s.rest = [] → motive s)
    (stop : ∀ (s : Cursor) (t rest), s.rest = t :: rest →
      isHalted ctx s = true ∨ stops t.kind = true → motive s)
    (turn : ∀ (s : Cursor) (t rest), s.rest = t :: rest → isHalted ctx s = false →
      stops t.kind = false → ((body t.kind ctx s).2.rest.length < s.rest.length →
        motive (body t.kind ctx s).2) → motive s)
    (s : Cursor) : motive s := by
  -- on the number of tokens left: a turn is taken only if it leaves fewer of them
  induction hn : s.rest.length using Nat.strongRecOn generalizing s with
  | ind n ih =>
    cases hs : s.rest with
    | nil => exact nil s hs
    | cons t rest =>
      by_cases hstop : isHalted ctx s = true ∨ stops t.kind = true
      · exact stop s t rest hs hstop
      rw [not_or, Bool.not_eq_true, Bool.not_eq_true] at hstop
      exact turn s t rest hs hstop.1 hstop.2 fun hlt => ih _ (hn ▸ hlt) _ rfl

variable {stops body ctx}

/-- One turn of a loop, and then the others. -/
theorem loop_step {t : Token} {rest : List Token} (hs : s.rest = t :: rest)
    (hhalt : isHalted ctx s = false) (hstops : stops t.kind = false)
    (hlt : (body t.kind ctx s).2.rest.length < s.rest.length) :
    loop stops body ctx s = andThen (attempt (body t.kind))
      (fun x => andThen (loop stops body) fun xs => give (x.toList ++ xs)) ctx s := by
  obtain ⟨xs, s', hxs⟩ := loop_isSome stops body ctx (body t.kind ctx s).2
  rw [loop_turn hs hhalt hstops, if_pos hlt, andThen, attempt]
  dsimp only
  rw [andThen, hxs]
  rfl

theorem loop_step_snd {t : Token} {rest : List Token} (hs : s.rest = t :: rest)
    (hhalt : isHalted ctx s = false) (hstops : stops t.kind = false)
    (hlt : (body t.kind ctx s).2.rest.length < s.rest.length) :
    (loop stops body ctx s).2 = (loop stops body ctx (body t.kind ctx s).2).2 := by
  rw [loop_turn hs hhalt hstops, if_pos hlt]

end Loop

/-! ## Repetitions -/

section RepeatAt

variable {kind : TokenKind} {body : Parse α} {ctx : ParseContext} {s : Cursor}

theorem repeatAt_stop (h : s.rest.head?.map Token.kind ≠ some kind) :
    repeatAt kind body ctx s = (some [], s) := by
  rw [repeatAt, if_neg h]

/-- One turn of a repetition, and then the others. -/
theorem repeatAt_step (hs : s.rest.head?.map Token.kind = some kind)
    (hlt : ∀ x s', body ctx s = (some x, s') → s'.rest.length < s.rest.length) :
    repeatAt kind body ctx s =
      andThen body (fun x => andThen (repeatAt kind body) fun xs => give (x :: xs)) ctx s := by
  rw [repeatAt, if_pos hs, andThen]
  rcases hb : body ctx s with ⟨_ | x, s'⟩
  · rfl
  · dsimp only
    rw [if_pos (hlt x s' hb), andThen]
    rcases repeatAt kind body ctx s' with ⟨_ | xs, s''⟩ <;> rfl

/-- Induction on the turns of a repetition. -/
@[elab_as_elim]
theorem repeatAt_induction (kind : TokenKind) (body : Parse α) (ctx : ParseContext)
    {motive : Cursor → Prop}
    (stop : ∀ s : Cursor, s.rest.head?.map Token.kind ≠ some kind → motive s)
    (turn : ∀ s : Cursor, s.rest.head?.map Token.kind = some kind →
      (∀ x s', body ctx s = (some x, s') → s'.rest.length < s.rest.length → motive s') → motive s)
    (s : Cursor) : motive s := by
  induction hn : s.rest.length using Nat.strongRecOn generalizing s with
  | ind n ih =>
    by_cases hs : s.rest.head?.map Token.kind = some kind
    · exact turn s hs fun _ s' _ hlt => ih _ (hn ▸ hlt) s' rfl
    · exact stop s hs

end RepeatAt

end Parse

end Wireframe
