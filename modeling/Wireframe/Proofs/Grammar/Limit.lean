import Wireframe.Proofs.Grammar.Boundary

/-!
# The limit on errors

The limit on errors ends a parse, and does nothing else to it. Two parses of the same tokens under
different limits go on alike until the smaller one is reached; from there on the one reports nothing
more, and the other only adds to what both have reported (`Parse.Built.truncates`).

* `Parsing.ofTokens_limit`: the errors under a limit are the first ones under any larger limit, and
  as long as the limit is not reached the scenes are the same.
-/

namespace Wireframe

namespace Parse

variable {α β : Type} {limit limit' : Nat} {finish : Range} {ctx : ParseContext} {s s' : Cursor}

/-! ## Going on after the limit -/

/-- What becomes of the errors while a parse goes on: others come after them, but none once
    the limit is reached. -/
structure Adds (ctx : ParseContext) (s s' : Cursor) : Prop where
  exists_append : ∃ more, s'.errors = s.errors ++ more
  eq_of_halted : isHalted ctx s = true → s'.errors = s.errors

namespace Adds

theorem of_eq (h : s'.errors = s.errors) : Adds ctx s s' :=
  ⟨⟨[], by rw [h, List.append_nil]⟩, fun _ => h⟩

theorem steps (ctx : ParseContext) : Cursor.Steps ctx (Adds ctx) where
  refl _ := of_eq rfl
  trans h h' := by
    obtain ⟨more, hmore⟩ := h.exists_append
    obtain ⟨more', hmore'⟩ := h'.exists_append
    refine ⟨⟨more ++ more', by rw [hmore', hmore, List.append_assoc]⟩, fun hhalt => ?_⟩
    have heq := h.eq_of_halted hhalt
    exact (h'.eq_of_halted ((isHalted_congr heq).trans hhalt)).trans heq
  next _ := of_eq rfl
  reportAt found e s := by
    obtain ⟨es, hes, -⟩ := reportAt_eq found e ctx s
    refine ⟨⟨es, by rw [hes]⟩, fun hhalt => ?_⟩
    rw [Parse.reportAt, if_pos hhalt]
  skipLine _ := of_eq rfl
  within h := ⟨h.exists_append, h.eq_of_halted⟩

end Adds

theorem Built.adds {p : Parse α} (h : Built p) (ctx : ParseContext) (s : Cursor) :
    Adds ctx s (p ctx s).2 :=
  h.steps (Adds.steps ctx) s

theorem adds_andThen {p : Parse α} {f : α → Parse β} (hf : ∀ x, Built (f x)) (ctx : ParseContext)
    (s : Cursor) : Adds ctx (p ctx s).2 (andThen p f ctx s).2 := by
  rw [andThen]
  rcases p ctx s with ⟨_ | x, s'⟩
  · exact .of_eq rfl
  · exact (hf x).adds ctx s'

theorem adds_loop {stops : TokenKind → Bool} {body : TokenKind → Parse α}
    (hbody : ∀ kind, Built (body kind)) {t : Token} {rest : List Token} (hs : s.rest = t :: rest)
    (hhalt : isHalted ctx s = false) (hstops : stops t.kind = false) :
    Adds ctx (body t.kind ctx s).2 (loop stops body ctx s).2 := by
  rw [loop_turn hs hhalt hstops]
  split
  · exact (Built.loop stops hbody).adds ctx _
  · exact .of_eq rfl

theorem adds_repeatAt {kind : TokenKind} {body : Parse α} (hbody : Built body)
    (hs : s.rest.head?.map Token.kind = some kind) :
    Adds ctx (body ctx s).2 (repeatAt kind body ctx s).2 := by
  rw [repeatAt, if_pos hs]
  rcases body ctx s with ⟨_ | x, s'⟩
  · exact .of_eq rfl
  · dsimp only
    split
    · exact (Built.repeatAt kind hbody).adds ctx s'
    · exact .of_eq rfl

/-! ## Two limits -/

/-- What a parse comes to under a limit, and under a larger one: the errors are cut short, and if
    the limit is not reached that makes no difference. -/
structure Truncates (limit : Nat) (r r' : Option α × Cursor) : Prop where
  errors_eq : r.2.errors = r'.2.errors.take limit
  eq_of_lt : r.2.errors.length < limit → r = r'

namespace Truncates

variable {r r' : Option α × Cursor} {q q' : Option β × Cursor}

theorem refl (h : r.2.errors.length ≤ limit) : Truncates limit r r :=
  ⟨(List.take_of_length_le h).symm, fun _ => rfl⟩

/-- Where nothing is reported any more, what is added under the larger limit is cut off. -/
theorem of_adds (h : Truncates limit r r') (hlimit : limit ≤ r.2.errors.length)
    (hq : Adds ⟨limit, finish⟩ r.2 q.2) (hq' : Adds ctx r'.2 q'.2) : Truncates limit q q' := by
  have heq : q.2.errors = r.2.errors := hq.eq_of_halted (decide_eq_true hlimit)
  obtain ⟨more, hmore⟩ := hq'.exists_append
  refine ⟨?_, fun hlt => absurd hlt (Nat.not_lt.2 (heq ▸ hlimit))⟩
  rw [h.errors_eq, List.length_take] at hlimit
  rw [heq, hmore, h.errors_eq,
    List.take_append_of_le_length (Nat.le_trans hlimit (Nat.min_le_right ..))]

/-- The same is done with what came out, and it leaves the errors as they are. -/
theorem map (h : Truncates limit r r') (g : Option α × Cursor → Option β × Cursor)
    (hg : ∀ r, (g r).2.errors = r.2.errors) : Truncates limit (g r) (g r') := by
  refine ⟨?_, fun hlt => ?_⟩
  · rw [hg, hg, h.errors_eq]
  · rw [h.eq_of_lt (by rwa [← hg])]

end Truncates

theorem length_concat_le {es : List ParseError} (h : es.length < limit) (e : ParseError) :
    (es ++ [e]).length ≤ limit := by
  rw [List.length_append]
  exact h

theorem not_halted_under (hs : s.errors.length < limit) : isHalted ⟨limit, finish⟩ s = false :=
  decide_eq_false (Nat.not_le.2 hs)

namespace Truncates

/-- Under both limits the turns are the same until one of them reaches the smaller limit. -/
theorem loop {stops : TokenKind → Bool} {body : TokenKind → Parse α}
    (hbuilt : ∀ kind, Built (body kind)) (hle : limit ≤ limit')
    (hbody : ∀ kind (s : Cursor), s.errors.length < limit →
      Truncates limit (body kind ⟨limit, finish⟩ s) (body kind ⟨limit', finish⟩ s))
    (hs : s.errors.length < limit) :
    Truncates limit (loop stops body ⟨limit, finish⟩ s) (loop stops body ⟨limit', finish⟩ s) := by
  induction s using loop_induction stops body ⟨limit, finish⟩ with
  | nil s hrest =>
    rw [loop_end hrest, loop_end hrest]
    exact .refl (Nat.le_of_lt hs)
  | stop s t rest hrest hstop =>
    have hstops := hstop.resolve_left (Bool.eq_false_iff.1 (not_halted_under hs))
    rw [loop_stop hrest hstop, loop_stop hrest (.inr hstops)]
    exact .refl (Nat.le_of_lt hs)
  | turn s t rest hrest hnot hstops ih =>
    have hnot' : isHalted ⟨limit', finish⟩ s = false :=
      not_halted_under (Nat.lt_of_lt_of_le hs hle)
    have hturn := hbody t.kind s hs
    -- below the smaller limit the turn is the same; at it, all that follows is cut off
    by_cases hlt : (body t.kind ⟨limit, finish⟩ s).2.errors.length < limit
    · rw [loop_turn hrest hnot hstops, loop_turn hrest hnot' hstops, ← hturn.eq_of_lt hlt]
      split
      · next hless =>
        exact (ih hless hlt).map
          (fun r => (some ((body t.kind ⟨limit, finish⟩ s).1.toList ++ r.1.getD []), r.2))
          fun _ => rfl
      · exact .refl (Nat.le_of_lt hlt)
    · exact hturn.of_adds (Nat.not_lt.1 hlt) (adds_loop hbuilt hrest hnot hstops)
        (adds_loop hbuilt hrest hnot' hstops)

theorem repeatAt {kind : TokenKind} {body : Parse α} (hbuilt : Built body)
    (hbody : ∀ s : Cursor, s.errors.length < limit →
      Truncates limit (body ⟨limit, finish⟩ s) (body ⟨limit', finish⟩ s))
    (hs : s.errors.length < limit) :
    Truncates limit (repeatAt kind body ⟨limit, finish⟩ s)
      (repeatAt kind body ⟨limit', finish⟩ s) := by
  induction s using repeatAt_induction kind body ⟨limit, finish⟩ with
  | stop s hkind =>
    rw [repeatAt_stop hkind, repeatAt_stop hkind]
    exact .refl (Nat.le_of_lt hs)
  | turn s hkind ih =>
    have hturn := hbody s hs
    -- as in a loop
    by_cases hlt : (body ⟨limit, finish⟩ s).2.errors.length < limit
    · rw [Parse.repeatAt, Parse.repeatAt, if_pos hkind, if_pos hkind, ← hturn.eq_of_lt hlt]
      rcases hb : body ⟨limit, finish⟩ s with ⟨_ | x, s'⟩ <;> rw [hb] at hlt
      · exact .refl (Nat.le_of_lt hlt)
      dsimp only
      split
      · next hless =>
        exact (ih x s' hb hless hlt).map (fun r => (r.1.map (x :: ·), r.2)) fun _ => rfl
      · exact .refl (Nat.le_of_lt hlt)
    · exact hturn.of_adds (Nat.not_lt.1 hlt) (adds_repeatAt hbuilt hkind)
        (adds_repeatAt hbuilt hkind)

theorem andThen {p : Parse α} {f : α → Parse β} (hbuilt : ∀ x, Built (f x))
    (hp : Truncates limit (p ⟨limit, finish⟩ s) (p ⟨limit', finish⟩ s))
    (hf : ∀ x (s : Cursor), s.errors.length < limit →
      Truncates limit (f x ⟨limit, finish⟩ s) (f x ⟨limit', finish⟩ s)) :
    Truncates limit (andThen p f ⟨limit, finish⟩ s) (andThen p f ⟨limit', finish⟩ s) := by
  by_cases hlt : (p ⟨limit, finish⟩ s).2.errors.length < limit
  · rw [Parse.andThen, Parse.andThen, ← hp.eq_of_lt hlt]
    rcases hps : p ⟨limit, finish⟩ s with ⟨_ | x, s'⟩ <;> rw [hps] at hlt
    · exact .refl (Nat.le_of_lt hlt)
    · exact hf x s' hlt
  · exact hp.of_adds (Nat.not_lt.1 hlt) (adds_andThen hbuilt _ s) (adds_andThen hbuilt _ s)

theorem orSkipLine {p : Parse α}
    (hp : Truncates limit (p ⟨limit, finish⟩ s) (p ⟨limit', finish⟩ s)) :
    Truncates limit (orSkipLine p ⟨limit, finish⟩ s) (orSkipLine p ⟨limit', finish⟩ s) := by
  have herrors : ∀ ctx, (Parse.orSkipLine p ctx s).2.errors = (p ctx s).2.errors := fun ctx => by
    rw [Parse.orSkipLine]
    rcases p ctx s with ⟨_ | x, s'⟩ <;> rfl
  refine ⟨by rw [herrors, herrors, hp.errors_eq], fun hlt => ?_⟩
  rw [herrors] at hlt
  rw [Parse.orSkipLine, Parse.orSkipLine, hp.eq_of_lt hlt]
  rfl

theorem reportAt (found : Option Token) (e : Expectation) (hle : limit ≤ limit')
    (hs : s.errors.length < limit) :
    Truncates limit (reportAt found e ⟨limit, finish⟩ s) (reportAt found e ⟨limit', finish⟩ s) := by
  rw [Parse.reportAt, Parse.reportAt, not_halted_under hs,
    not_halted_under (Nat.lt_of_lt_of_le hs hle)]
  exact .refl (length_concat_le hs _)

end Truncates

/-- Under two limits a parse does the same until the smaller one is reached. -/
theorem Built.truncates {p : Parse α} (h : Built p) (hle : limit ≤ limit')
    (hs : s.errors.length < limit) :
    Truncates limit (p ⟨limit, finish⟩ s) (p ⟨limit', finish⟩ s) := by
  induction h generalizing s with
  | give x => exact .refl (Nat.le_of_lt hs)
  | fail => exact .refl (Nat.le_of_lt hs)
  | peek => exact .refl (Nat.le_of_lt hs)
  | next =>
    refine .refl ?_
    rw [next.eq_def]
    split <;> exact Nat.le_of_lt hs
  | reportAt found e => exact .reportAt found e hle hs
  | report e => exact .reportAt s.rest.head? e hle hs
  | andThen _ hf ihp ihf => exact .andThen hf (ihp hs) fun x _ => ihf x
  | attempt _ ih => exact (ih hs).map (fun r => (some r.1, r.2)) fun _ => rfl
  | orSkipLine _ ih => exact (ih hs).orSkipLine
  | within rule _ ih =>
    exact (ih (s := { s with path := s.path ++ [rule] }) hs).map
      (fun r => (r.1, { r.2 with path := r.2.path.dropLast })) fun _ => rfl
  | loop stops hbody ih => exact .loop hbody hle (fun kind _ => ih kind) hs
  | repeatAt kind hbody ih => exact .repeatAt hbody (fun _ => ih) hs

end Parse

namespace Parsing

/-- The errors under a limit are the first ones under a larger limit, and if there are fewer than it
    allows the scenes are the same. -/
theorem ofTokens_truncates {limit limit' : Nat} (tokens : List Token)
    (hle : max 1 limit ≤ max 1 limit') :
    (ofTokens limit tokens).errors = (ofTokens limit' tokens).errors.take (max 1 limit) ∧
      ((ofTokens limit tokens).errors.length < max 1 limit →
        ofTokens limit tokens = ofTokens limit' tokens) := by
  have h : Parse.Truncates (max 1 limit)
      (Parse.scene ⟨max 1 limit, finishOf (kept tokens)⟩ ⟨kept tokens, [], []⟩)
      (Parse.scene ⟨max 1 limit', finishOf (kept tokens)⟩ ⟨kept tokens, [], []⟩) :=
    (inferInstance : Parse.Built Parse.scene).truncates hle
      (Nat.lt_of_lt_of_le Nat.one_pos (Nat.le_max_left ..))
  rw [ofTokens_eq, ofTokens_eq]
  refine ⟨h.errors_eq, fun hlt => ?_⟩
  rw [h.eq_of_lt hlt]

/-- Without errors under one limit there are none under another. -/
theorem errors_eq_nil_of_eq_nil {limit limit' : Nat} {tokens : List Token}
    (h : (ofTokens limit tokens).errors = []) : (ofTokens limit' tokens).errors = [] := by
  rcases Nat.le_total (max 1 limit) (max 1 limit') with hle | hle
  · have hlt : (ofTokens limit tokens).errors.length < max 1 limit := by
      rw [h]
      exact Nat.lt_of_lt_of_le Nat.one_pos (Nat.le_max_left ..)
    rw [← (ofTokens_truncates tokens hle).2 hlt, h]
  · rw [(ofTokens_truncates tokens hle).1, h, List.take_nil]

/-- A limit on errors only cuts a parse short. Its errors are the first ones that there are under
    any larger limit, as many as it allows, and where there are fewer the scenes are the same. So
    whether tokens are accepted does not depend on the limit. -/
theorem ofTokens_limit (tokens : List Token) :
    (∀ m n : Nat, max 1 m ≤ max 1 n →
      (ofTokens m tokens).errors = (ofTokens n tokens).errors.take (max 1 m) ∧
        ((ofTokens m tokens).errors.length < max 1 m →
          (ofTokens m tokens).scene = (ofTokens n tokens).scene)) ∧
      (∀ m : Nat, (ofTokens m tokens).errors.length ≤ max 1 m) ∧
      ∀ m n : Nat, (ofTokens m tokens).errors = [] ↔ (ofTokens n tokens).errors = [] := by
  refine ⟨fun m n hle => ?_, fun m => ?_,
    fun m n => ⟨errors_eq_nil_of_eq_nil, errors_eq_nil_of_eq_nil⟩⟩
  · obtain ⟨herrors, hsame⟩ := ofTokens_truncates tokens hle
    exact ⟨herrors, fun hlt => congrArg Parsing.scene (hsame hlt)⟩
  · rw [(ofTokens_truncates tokens (Nat.le_refl (max 1 m))).1]
    exact List.length_take_le _ _

/-- Three bad lines, of which a limit of two leaves out the last. -/
theorem ofTokens_limit_commas :
    let bad : List Token := [⟨.comma, ",", .origin⟩, ⟨.lineEnd, "\n", .origin⟩]
    let tokens := bad ++ bad ++ bad
    max 1 2 ≤ max 1 9 ∧ (ofTokens 9 tokens).errors.length = 3 ∧
      (ofTokens 2 tokens).errors = (ofTokens 9 tokens).errors.take 2 ∧
      (ofTokens 7 tokens).scene = (ofTokens 9 tokens).scene := by
  intro bad tokens
  exact ⟨by decide, by decide +kernel, ((ofTokens_limit tokens).1 2 9 (by decide)).1,
    ((ofTokens_limit tokens).1 7 9 (by decide)).2 (by decide +kernel)⟩

end Parsing

end Wireframe
