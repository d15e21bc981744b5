import Wireframe.Proofs.Grammar.Built
import Wireframe.Proofs.Grammar.Stage

/-!
# The first error of a parse

A parse that starts at a stage of a scene is *tracked* (`Tracked`): either it gives an answer
without an error, and then the tokens that it read lead from that stage to another one, or the first
error that it reports is where it should be (`Blames`): the tokens before lead to a stage that
refuses what was found, and that goes on with each kind that was expected.
-/

namespace Wireframe

namespace Stage

/-- Whether a scene at a stage cannot go on with what was found: a token, or
    the end of the input. -/
def Refuses (σ : Stage) : Option Token → Prop
  | some t => σ.step? t = none
  | none => ∀ place, σ ≠ line place

/-- Whether a scene at a stage goes on with every kind that would have met an expectation. -/
def Expects (σ : Stage) (e : Expectation) : Prop :=
  ∀ kind ∈ e.kinds, (σ.after? kind).isSome = true

instance (σ : Stage) (e : Expectation) : Decidable (σ.Expects e) :=
  inferInstanceAs (Decidable (∀ kind ∈ e.kinds, (σ.after? kind).isSome = true))

/-- Whether an error is where a scene that is at a stage cannot go on. -/
def Blames (σ : Stage) (tokens : List Token) (e : ParseError) : Prop :=
  ∃ read rest τ, tokens = read ++ rest ∧ σ.run? read = some τ ∧ e.found = rest.head? ∧
    τ.Refuses e.found ∧ τ.Expects e.expectation

theorem Blames.append {σ τ : Stage} {read tokens : List Token} {e : ParseError}
    (hread : σ.run? read = some τ) (h : τ.Blames tokens e) : σ.Blames (read ++ tokens) e := by
  obtain ⟨read', rest, υ, rfl, hread', h⟩ := h
  refine ⟨read ++ read', rest, υ, (List.append_assoc ..).symm, ?_, h⟩
  rw [run?_append, hread]
  exact hread'

/-- Tokens that go wrong do not lead to the beginning of a line. -/
theorem Blames.run?_ne {σ : Stage} {tokens : List Token} {e : ParseError}
    (h : σ.Blames tokens e) (place : Place) : σ.run? tokens ≠ some (line place) := by
  obtain ⟨read, rest, τ, rfl, hread, hfound, hrefuses, -⟩ := h
  rw [run?_append, hread]
  rw [hfound] at hrefuses
  cases rest with
  | nil => exact fun h => hrefuses place (Option.some.inj h)
  | cons t rest =>
    have hnone : τ.step? t = none := hrefuses
    rw [Option.bind_some, run?_cons, hnone]
    exact nofun

end Stage

namespace Parse

open Stage

variable {α β : Type} {σ τ : Stage} {s : Cursor} {ctx : ParseContext}

/-- What a parse from the cursor `s`, at the stage `σ`, comes to. `Post` says what is given, and at
    which stage and before which tokens. -/
def Tracked (σ : Stage) (Post : α → Stage → List Token → Prop) (s : Cursor)
    (r : Option α × Cursor) : Prop :=
  (∃ x read τ, r.1 = some x ∧ r.2.errors = s.errors ∧ s.rest = read ++ r.2.rest ∧
      σ.run? read = some τ ∧ Post x τ r.2.rest) ∨
    ∃ e more, r.2.errors = s.errors ++ e :: more ∧ σ.Blames s.rest e

namespace Tracked

variable {Post : α → Stage → List Token → Prop} {Post' : β → Stage → List Token → Prop}

theorem stay {x : α} (h : Post x σ s.rest) : Tracked σ Post s (some x, s) :=
  .inl ⟨x, [], σ, rfl, rfl, rfl, rfl, h⟩

theorem give {x : α} (h : Post x σ s.rest) : Tracked σ Post s (Parse.give x ctx s) :=
  stay h

theorem mono {Post' : α → Stage → List Token → Prop} {r : Option α × Cursor}
    (hpost : ∀ x τ rest, Post x τ rest → Post' x τ rest) (h : Tracked σ Post s r) :
    Tracked σ Post' s r :=
  h.imp_left fun ⟨x, read, τ, hx, herrors, hrest, hread, h⟩ =>
    ⟨x, read, τ, hx, herrors, hrest, hread, hpost x τ _ h⟩

/-- One parse after the other: the second one starts at the stage that the first one came to. -/
theorem bind_of_eq {p : Parse α} {f : α → Parse β} (hbuilt : ∀ x, Built (f x))
    (hp : Tracked σ Post s (p ctx s))
    (hf : ∀ x τ s', p ctx s = (some x, s') → isHalted ctx s' = isHalted ctx s → Post x τ s'.rest →
      Tracked τ Post' s' (f x ctx s')) : Tracked σ Post' s (andThen p f ctx s) := by
  rw [andThen.eq_def]
  rcases hps : p ctx s with ⟨_ | x, s'⟩ <;> rw [hps] at hp
  · rcases hp with ⟨x, read, τ, hx, -⟩ | hp
    · cases hx
    · exact .inr hp
  rcases hp with ⟨x, read, τ, hx, herrors, hrest, hread, hpost⟩ | ⟨e, more, herrors, hblames⟩
  · obtain rfl := Option.some.inj hx
    rcases hf _ τ s' hps (isHalted_congr herrors) hpost with
      ⟨y, read', υ, hy, herrors', hrest', hread', hpost'⟩ | ⟨e, more, herrors', hblames⟩
    · refine .inl ⟨y, read ++ read', υ, hy, herrors'.trans herrors, ?_, ?_, hpost'⟩
      · rw [List.append_assoc, ← hrest', ← hrest]
      · rw [run?_append, hread]
        exact hread'
    · refine .inr ⟨e, more, by rw [herrors', herrors], ?_⟩
      rw [hrest]
      exact hblames.append hread
  · -- what comes after the first error only adds others
    obtain ⟨read, reported, -, hreported, -⟩ := (hbuilt x).leads ctx s'
    refine .inr ⟨e, more ++ reported, ?_, hblames⟩
    rw [hreported, herrors, List.append_assoc]
    rfl

theorem bind_of_built {p : Parse α} {f : α → Parse β} (hbuilt : ∀ x, Built (f x))
    (hp : Tracked σ Post s (p ctx s))
    (hf : ∀ x τ s', isHalted ctx s' = isHalted ctx s → Post x τ s'.rest →
      Tracked τ Post' s' (f x ctx s')) : Tracked σ Post' s (andThen p f ctx s) :=
  bind_of_eq hbuilt hp fun x τ s' _ => hf x τ s'

theorem bind {p : Parse α} {f : α → Parse β} [∀ x, Built (f x)] (hp : Tracked σ Post s (p ctx s))
    (hf : ∀ x τ s', isHalted ctx s' = isHalted ctx s → Post x τ s'.rest →
      Tracked τ Post' s' (f x ctx s')) : Tracked σ Post' s (andThen p f ctx s) :=
  bind_of_built inferInstance hp hf

theorem map {p : Parse α} {f : α → β} (h : Tracked σ (fun x => Post' (f x)) s (p ctx s)) :
    Tracked σ Post' s (andThen p (fun x => Parse.give (f x)) ctx s) :=
  h.bind fun _ _ _ _ hpost => give hpost

theorem attempt {p : Parse α} {Post : Option α → Stage → List Token → Prop}
    (h : Tracked σ (fun x => Post (some x)) s (p ctx s)) : Tracked σ Post s (attempt p ctx s) :=
  h.imp_left fun ⟨x, read, τ, hx, herrors, hrest, hread, hpost⟩ =>
    ⟨some x, read, τ, congrArg some hx, herrors, hrest, hread, hpost⟩

theorem orSkipLine {p : Parse α} (h : Tracked σ Post s (p ctx s)) :
    Tracked σ Post s (orSkipLine p ctx s) := by
  rw [Parse.orSkipLine.eq_def]
  rcases hps : p ctx s with ⟨_ | x, s'⟩ <;> rw [hps] at h
  · rcases h with ⟨x, read, τ, hx, -⟩ | h
    · cases hx
    · exact .inr h
  · exact h

theorem within {p : Parse α} {rule : Rule}
    (h : Tracked σ Post { s with path := s.path ++ [rule] }
      (p ctx { s with path := s.path ++ [rule] })) : Tracked σ Post s (within rule p ctx s) :=
  h

/-- A token that is read. -/
theorem next {Post : Token → Stage → List Token → Prop} {t : Token} {rest : List Token}
    (hs : s.rest = t :: rest) (hstep : σ.step? t = some τ) (h : Post t τ rest) :
    Tracked σ Post s (Parse.next ctx s) := by
  rw [next_cons hs]
  refine .inl ⟨t, [t], τ, rfl, rfl, hs, ?_, h⟩
  rw [run?_eq_some_cons hstep, run?_nil]

/-- An error is reported. The token that is blamed may have been read already. -/
theorem reportAt_fail {s' : Cursor} {found : Option Token} {e : Expectation}
    (hs : s'.errors = s.errors) (hhalt : isHalted ctx s = false) (hfound : found = s.rest.head?)
    (hrefuses : σ.Refuses found) (hexpects : σ.Expects e) :
    Tracked σ Post s (andThen (reportAt found e) (fun _ => (fail : Parse α)) ctx s') := by
  rw [andThen, reportAt, isHalted_congr hs, hhalt]
  exact .inr ⟨_, [], congrArg (· ++ _) hs, [], s.rest, σ, rfl, rfl, hfound, hrefuses, hexpects⟩

theorem refuse {e : Expectation} (hhalt : isHalted ctx s = false)
    (hrefuses : σ.Refuses s.rest.head?) (hexpects : σ.Expects e) :
    Tracked σ Post s (refuse e ctx s) :=
  reportAt_fail rfl hhalt rfl hrefuses hexpects

/-- An answer is dropped where it is empty. That is no way to lose tokens without an error, by the
    account of the parse. -/
theorem dropEmpty {p : Parse α} {isEmpty : α → Bool} {K : α → List Token → Prop}
    (h : Tracked σ Post s (p ctx s))
    (hout : Outcome K false s
      (andThen p (fun x => if isEmpty x then fail else Parse.give x) ctx s)) :
    Tracked σ Post s (andThen p (fun x => if isEmpty x then fail else Parse.give x) ctx s) := by
  obtain ⟨read, reported, -, hreported, -, haccount⟩ := hout
  rw [andThen.eq_def] at hreported haccount ⊢
  rcases hps : p ctx s with ⟨_ | x, s'⟩ <;> rw [hps] at h hreported haccount
  · exact h
  dsimp only at hreported haccount ⊢
  by_cases hempty : isEmpty x = true
  · rw [if_pos hempty] at hreported haccount ⊢
    rcases h with ⟨-, -, -, -, herrors, -⟩ | h
    · exact absurd (List.append_right_eq_self.1 (hreported.symm.trans herrors)) (haccount rfl)
    · exact .inr h
  · rw [if_neg hempty]
    exact h

/-- A loop whose body is tracked from every stage that the loop can be at. -/
theorem loop {I : Stage → List Token → Prop} {stops : TokenKind → Bool} {body : TokenKind → Parse α}
    [∀ kind, Built (body kind)]
    (hbody : ∀ σ ctx s t rest, s.rest = t :: rest → isHalted ctx s = false → stops t.kind = false →
      I σ s.rest → Tracked σ (fun _ => I) s (body t.kind ctx s) ∧
        (body t.kind ctx s).2.rest.length < s.rest.length)
    (hhalt : isHalted ctx s = false) (h : I σ s.rest) :
    Tracked σ (fun _ τ rest => I τ rest ∧ Begins stops rest) s (loop stops body ctx s) := by
  induction s using loop_induction stops body ctx generalizing σ with
  | nil s hs =>
    rw [loop_end hs]
    exact stay ⟨h, hs ▸ .nil⟩
  | stop s t rest hs hstop =>
    rw [loop_stop hs hstop]
    exact stay ⟨h, hs ▸ .cons (hstop.resolve_left (Bool.eq_false_iff.1 hhalt))⟩
  | turn s t rest hs hhalt hstops ih =>
    obtain ⟨htracked, hlt⟩ := hbody σ ctx s t rest hs hhalt hstops h
    have hturn : Tracked σ (fun _ => I) s (Parse.attempt (body t.kind) ctx s) := attempt htracked
    rw [loop_step hs hhalt hstops hlt]
    refine hturn.bind_of_eq (fun _ => inferInstance) fun x τ s' hx hhalt' h' => ?_
    obtain rfl : (body t.kind ctx s).2 = s' := congrArg Prod.snd hx
    exact map (ih hlt (hhalt'.trans hhalt) h')

/-- A repetition whose turns are tracked from the stage that each of them leads back to. -/
theorem repeatAt {kind : TokenKind} {body : Parse α} [Built body]
    (hbody : ∀ s t rest, s.rest = t :: rest → isHalted ctx s = false → t.kind = kind →
      Tracked σ (fun _ τ _ => τ = σ) s (body ctx s) ∧
        (body ctx s).2.rest.length < s.rest.length)
    (hhalt : isHalted ctx s = false) :
    Tracked σ (fun _ τ rest => τ = σ ∧ Begins (· ≠ kind) rest) s (repeatAt kind body ctx s) := by
  induction s using repeatAt_induction kind body ctx with
  | stop s hs =>
    rw [repeatAt_stop hs]
    refine stay ⟨rfl, fun t ht => decide_eq_true fun hk => hs ?_⟩
    rw [Option.mem_def.1 ht, ← hk]
    rfl
  | turn s hs ih =>
    obtain ⟨t, rest, hrest, hkind⟩ := List.exists_cons_of_head?_map hs
    obtain ⟨htracked, hlt⟩ := hbody s t rest hrest hhalt hkind
    have hturn : ∀ x s', body ctx s = (some x, s') → s'.rest.length < s.rest.length :=
      fun x s' hx => by rwa [hx] at hlt
    rw [repeatAt_step hs hturn]
    refine htracked.bind_of_eq (fun _ => inferInstance) fun x τ s' hx hhalt' hτ => ?_
    subst hτ
    exact map (ih x s' hx (hturn x s' hx) (hhalt'.trans hhalt))

end Tracked

end Parse

end Wireframe
