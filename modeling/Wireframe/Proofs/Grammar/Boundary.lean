import Mathlib.Data.List.TakeWhile
import Wireframe.Proofs.Grammar.Acceptance
import Wireframe.Proofs.Grammar.Built

/-!
# Where a page begins

A page begins with a token of its own, and every rule inside of a page stops there: where such a
token comes after the tokens that are left, a parse does what it does at the end of the input
(`Unmoved`). This holds as long as no error was reported at the end of the input, where the parse
had missed something, and the limit on errors is not reached.

Nor does it matter to a parse which errors were reported before it began, again up to the limit
(`Built.after`).
-/

namespace Wireframe

namespace Cursor

/-- A cursor with more tokens after those that are left. -/
def before (s : Cursor) (more : List Token) : Cursor :=
  { s with rest := s.rest ++ more }

theorem before_nil {s : Cursor} (hs : s.rest = []) (more : List Token) :
    (s.before more).rest = more :=
  congrArg (· ++ more) hs

theorem before_cons {s : Cursor} {t : Token} {rest : List Token} (hs : s.rest = t :: rest)
    (more : List Token) : (s.before more).rest = t :: (rest ++ more) :=
  congrArg (· ++ more) hs

theorem before_lt {s s' : Cursor} {more : List Token} :
    (s'.before more).rest.length < (s.before more).rest.length ↔
      s'.rest.length < s.rest.length := by
  rw [before, before, List.length_append, List.length_append, Nat.add_lt_add_iff_right]

/-- A cursor with errors that were reported before the others. -/
def after (s : Cursor) (es : List ParseError) : Cursor :=
  { s with errors := es ++ s.errors }

theorem after_lt {s s' : Cursor} {es : List ParseError} :
    (s'.after es).rest.length < (s.after es).rest.length ↔ s'.rest.length < s.rest.length :=
  Iff.rfl

namespace Leads

variable {finish : Range} {s s' : Cursor}

theorem after (h : Leads finish s s') (es : List ParseError) :
    Leads finish (s.after es) (s'.after es) := by
  obtain ⟨read, reported, hrest, herrors, hat, hpath⟩ := h
  refine ⟨read, reported, hrest, ?_, hat, hpath⟩
  change es ++ s'.errors = es ++ s.errors ++ reported
  rw [herrors, List.append_assoc]

theorem not_halted (h : Leads finish s s') {ctx : ParseContext}
    (hhalt : Parse.isHalted ctx s' = false) : Parse.isHalted ctx s = false := by
  obtain ⟨-, reported, -, herrors, -⟩ := h
  cases hs : Parse.isHalted ctx s with
  | false => rfl
  | true => exact absurd (Parse.isHalted_mono herrors hs) (by rw [hhalt]; decide)

end Leads

end Cursor

namespace Parse

variable {α β : Type} {ctx : ParseContext} {s : Cursor}

theorem not_halted_of_after {es : List ParseError} (h : isHalted ctx (s.after es) = false) :
    isHalted ctx s = false := by
  rw [isHalted, decide_eq_false_iff_not, Cursor.after, List.length_append] at h
  rw [isHalted, decide_eq_false_iff_not]
  omega

/-! ## Errors reported before -/

/-- Errors that were reported before stay in front, and change nothing else. -/
def Ignores (es : List ParseError) (p : Parse α) (ctx : ParseContext) (s : Cursor) : Prop :=
  isHalted ctx ((p ctx s).2.after es) = false →
    p ctx (s.after es) = ((p ctx s).1, (p ctx s).2.after es)

/-- Before a limit that is not reached in the end, it is not reached on the way either. -/
theorem Built.not_halted_after {p : Parse α} (h : Built p) {es : List ParseError}
    (hhalt : isHalted ctx ((p ctx s).2.after es) = false) : isHalted ctx (s.after es) = false :=
  ((h.leads ctx s).after es).not_halted hhalt

namespace Ignores

variable {es : List ParseError}

theorem andThen {p : Parse α} {f : α → Parse β} (hf : ∀ x, Built (f x)) (hp : Ignores es p ctx s)
    (hps : ∀ x s', Ignores es (f x) ctx s') : Ignores es (andThen p f) ctx s := by
  intro hhalt
  rw [Parse.andThen.eq_def] at hhalt
  rw [Parse.andThen.eq_def, Parse.andThen.eq_def]
  rcases hs : p ctx s with ⟨_ | x, s'⟩ <;> rw [hs] at hhalt
  · rw [hp (by rwa [hs]), hs]
  · rw [hp (by rw [hs]; exact (hf x).not_halted_after hhalt), hs]
    exact hps x s' hhalt

theorem orSkipLine {p : Parse α} (hp : Ignores es p ctx s) : Ignores es (orSkipLine p) ctx s := by
  intro hhalt
  rw [Parse.orSkipLine.eq_def] at hhalt
  rw [Parse.orSkipLine.eq_def, Parse.orSkipLine.eq_def]
  rcases hs : p ctx s with ⟨_ | x, s'⟩ <;> rw [hs] at hhalt
  · rw [hp (by rw [hs]; exact hhalt), hs]
    rfl
  · rw [hp (by rwa [hs]), hs]

theorem within {p : Parse α} {rule : Rule}
    (hp : Ignores es p ctx { s with path := s.path ++ [rule] }) :
    Ignores es (within rule p) ctx s := by
  intro hhalt
  rw [Parse.within, Parse.within]
  have hrun := hp hhalt
  dsimp only at hrun ⊢
  rw [show Cursor.mk (s.after es).rest ((s.after es).path ++ [rule]) (s.after es).errors =
    Cursor.after { s with path := s.path ++ [rule] } es from rfl, hrun]
  rfl

/-- The limit is not reached in the end, so it is not reached before any of the turns. -/
theorem loop {stops : TokenKind → Bool} {body : TokenKind → Parse α}
    (hbuilt : ∀ kind, Built (body kind)) (hbody : ∀ kind s, Ignores es (body kind) ctx s) :
    Ignores es (loop stops body) ctx s := by
  have hloop : Built (Parse.loop stops body) := .loop stops hbuilt
  intro hhalt
  induction s using loop_induction stops body ctx with
  | nil s hs => rw [loop_end hs, loop_end (s := s.after es) hs]
  | stop s t rest hs hstop =>
    have hnot := not_halted_of_after (hloop.not_halted_after hhalt)
    have hstops : stops t.kind = true := hstop.resolve_left (Bool.eq_false_iff.1 hnot)
    rw [loop_stop hs hstop, loop_stop (s := s.after es) hs (.inr hstops)]
  | turn s t rest hs hnot hstops ih =>
    rw [loop_turn (s := s.after es) hs (hloop.not_halted_after hhalt) hstops]
    rw [loop_turn hs hnot hstops] at hhalt ⊢
    split at hhalt
    · next hlt =>
      rw [hbody t.kind s (hloop.not_halted_after hhalt), if_pos hlt, if_pos (Cursor.after_lt.2 hlt),
        ih hlt hhalt]
    · next hlt => rw [hbody t.kind s hhalt, if_neg hlt, if_neg (mt Cursor.after_lt.1 hlt)]

theorem repeatAt {kind : TokenKind} {body : Parse α} (hbuilt : Built body)
    (hbody : ∀ s, Ignores es body ctx s) : Ignores es (repeatAt kind body) ctx s := by
  intro hhalt
  induction s using repeatAt_induction kind body ctx with
  | stop s hs => rw [repeatAt_stop hs, repeatAt_stop (s := s.after es) hs]
  | turn s hs ih =>
    have hs' : (s.after es).rest.head?.map Token.kind = some kind := hs
    -- not halted at the end, the parse is not halted after a turn either
    rw [Parse.repeatAt, if_pos hs] at hhalt
    rw [Parse.repeatAt, if_pos hs', Parse.repeatAt, if_pos hs]
    rcases hb : body ctx s with ⟨_ | x, s'⟩ <;> rw [hb] at hhalt
    · rw [hbody s (by rwa [hb]), hb]
    dsimp only at hhalt ⊢
    split at hhalt
    · next hlt =>
      have hturn := (Built.repeatAt kind hbuilt).not_halted_after hhalt
      rw [hbody s (by rwa [hb]), hb]
      dsimp only
      rw [if_pos hlt, if_pos (Cursor.after_lt.2 hlt), ih x s' hb hlt hhalt]
    · next hlt =>
      rw [hbody s (by rwa [hb]), hb]
      dsimp only
      rw [if_neg hlt, if_neg (mt Cursor.after_lt.1 hlt)]

theorem reportAt (found : Option Token) (e : Expectation) :
    Ignores es (reportAt found e) ctx s := by
  intro hhalt
  have hafter := (Built.reportAt found e).not_halted_after hhalt
  rw [Parse.reportAt, Parse.reportAt, hafter, not_halted_of_after hafter]
  exact congrArg (Prod.mk _) (congrArg (Cursor.mk _ _) (List.append_assoc ..))

end Ignores

theorem Built.after {p : Parse α} (h : Built p) {es : List ParseError} : Ignores es p ctx s := by
  induction h generalizing s with
  | give x => exact fun _ => rfl
  | fail => exact fun _ => rfl
  | peek => exact fun _ => rfl
  | next =>
    intro _
    rw [next.eq_def, next.eq_def, show (s.after es).rest = s.rest from rfl]
    split <;> rfl
  | reportAt found e => exact .reportAt found e
  | report e => exact .reportAt s.rest.head? e
  | andThen _ hf ihp ihf => exact .andThen hf ihp fun x _ => ihf x
  | attempt _ ih => exact fun hhalt => congrArg (fun r => (some r.1, r.2)) (ih hhalt)
  | orSkipLine _ ih => exact ih.orSkipLine
  | within rule _ ih => exact ih.within
  | loop stops hbody ih => exact .loop hbody fun kind _ => ih kind
  | repeatAt kind hbody ih => exact .repeatAt hbody fun _ => ih

/-! ## Before a page -/

/-- A page comes next. -/
def BeginsPage (tokens : List Token) : Prop :=
  ∃ t rest, tokens = t :: rest ∧ t.kind.startsPage = true

/-- The tokens, if there are any, go up to the end of a line. -/
def EndsLine (tokens : List Token) : Prop :=
  ∀ t ∈ tokens.getLast?, t.kind = .lineEnd

/-- Nothing was missed at the end of the input, and the limit on errors is not reached. -/
structure Clean (ctx : ParseContext) (s : Cursor) : Prop where
  not_halted : isHalted ctx s = false
  found : ∀ e ∈ s.errors, e.found ≠ none

/-- With a page after the tokens that are left, a parse does what it does without. A `strict` parse
    that gives nothing leaves some of those tokens. -/
def Unmoved (strict : Bool) (p : Parse α) (ctx : ParseContext) (s : Cursor) : Prop :=
  EndsLine s.rest → Clean ctx (p ctx s).2 →
    (∀ finish more, BeginsPage more →
      p { ctx with finish := finish } (s.before more) = ((p ctx s).1, (p ctx s).2.before more)) ∧
    (strict = true → (p ctx s).1 = none → (p ctx s).2.rest ≠ [])

theorem EndsLine.of_suffix {tokens read rest : List Token} (h : EndsLine tokens)
    (hrest : tokens = read ++ rest) : EndsLine rest := by
  subst hrest
  intro t ht
  exact h t (by rw [List.getLast?_append, Option.mem_def.1 ht]; rfl)

theorem EndsLine.of_leads {finish : Range} {s s' : Cursor} (h : EndsLine s.rest)
    (hleads : s.Leads finish s') : EndsLine s'.rest := by
  obtain ⟨read, -, hrest, -⟩ := hleads
  exact h.of_suffix hrest

theorem Clean.of_leads {finish : Range} {s s' : Cursor} (h : Clean ctx s')
    (hleads : s.Leads finish s') : Clean ctx s := by
  refine ⟨hleads.not_halted h.not_halted, fun e he => h.found e ?_⟩
  obtain ⟨-, reported, -, herrors, -⟩ := hleads
  rw [herrors]
  exact List.mem_append_left _ he

/-- Tokens that go up to the end of a line, and some more: skipping a line stays in the first. -/
theorem skipLine_before {more : List Token} (hs : s.rest ≠ []) (hends : EndsLine s.rest)
    (finish : Range) :
    (skipLine { ctx with finish := finish } (s.before more)).2 =
      (skipLine ctx s).2.before more := by
  have hmem : s.rest.getLast hs ∈ s.rest ∧ (s.rest.getLast hs).kind = .lineEnd :=
    ⟨List.getLast_mem hs, hends _ (List.getLast?_eq_some_getLast hs)⟩
  have hne : s.rest.dropWhile (·.kind ≠ .lineEnd) ≠ [] := by
    rw [Ne, List.dropWhile_eq_nil_iff]
    exact fun h => of_decide_eq_true (h _ hmem.1) hmem.2
  rw [skipLine, skipLine, Cursor.before, Cursor.before]
  dsimp only
  rw [List.dropWhile_append, if_neg (by simpa using hne), List.tail_append_of_ne_nil hne]

namespace Unmoved

variable {strict : Bool}

theorem give (x : α) : Unmoved strict (Parse.give x) ctx s := fun _ _ =>
  ⟨fun _ _ _ => rfl, fun _ => nofun⟩

theorem fail : Unmoved false (Parse.fail : Parse α) ctx s := fun _ _ =>
  ⟨fun _ _ _ => rfl, Bool.noConfusion⟩

/-- A token that is there is read. -/
theorem next {t : Token} {rest : List Token} (hs : s.rest = t :: rest) :
    Unmoved strict Parse.next ctx s := by
  intro _ _
  rw [next_cons hs]
  refine ⟨fun finish more _ => ?_, fun _ => nofun⟩
  rw [next_cons (Cursor.before_cons hs more)]
  rfl

/-- What refuses the end of the input has nothing to do there. -/
theorem missing {p : Parse α} {e : Expectation} (hs : s.rest = [])
    (h : p ctx s = Parse.refuse e ctx s) (hp : Built p) : Unmoved strict p ctx s := by
  intro _ hclean
  have hhalt := (hclean.of_leads (hp.leads ctx s)).not_halted
  rw [h, refuse_eq hhalt, hs] at hclean
  exact absurd rfl (hclean.found _ (List.mem_append_right _ List.mem_cons_self))

/-- A refusal at the end of the input is an error that is reported there. -/
theorem refuse (e : Expectation) : Unmoved strict (refuse e : Parse α) ctx s := by
  have hbuilt : Built (Parse.refuse e : Parse α) := inferInstance
  cases hs : s.rest with
  | nil => exact missing hs rfl hbuilt
  | cons t rest =>
    intro _ hclean
    have hhalt := (hclean.of_leads (hbuilt.leads ctx s)).not_halted
    rw [refuse_eq hhalt]
    refine ⟨fun finish more _ => ?_, fun _ _ => hs ▸ List.cons_ne_nil _ _⟩
    have hhalt' : isHalted { ctx with finish := finish } (s.before more) = false := hhalt
    rw [refuse_eq hhalt']
    simp only [Cursor.before, hs, List.cons_append, List.head?_cons,
      Option.map_some, Option.getD_some]

/-- One parse after the other. -/
theorem bind_of_built {p : Parse α} {f : α → Parse β} [Built p] (hbuilt : ∀ x, Built (f x))
    (hp : Unmoved strict p ctx s)
    (hf : ∀ x s', p ctx s = (some x, s') → Unmoved strict (f x) ctx s') :
    Unmoved strict (andThen p f) ctx s := by
  intro hends hclean
  rw [andThen.eq_def] at hclean ⊢
  have hleads := Built.leads (p := p) inferInstance ctx s
  rcases hps : p ctx s with ⟨_ | x, s'⟩ <;> rw [hps] at hclean hleads
  · obtain ⟨hsame, hrest⟩ := hp hends (by rwa [hps])
    rw [hps] at hsame hrest
    refine ⟨fun finish more hmore => ?_, fun h _ => hrest h rfl⟩
    rw [andThen, hsame finish more hmore]
  · obtain ⟨hsame, -⟩ := hp hends (by
      rw [hps]
      exact hclean.of_leads ((hbuilt x).leads ctx s'))
    obtain ⟨hsame', hrest'⟩ := hf x s' hps (hends.of_leads hleads) hclean
    rw [hps] at hsame
    refine ⟨fun finish more hmore => ?_, hrest'⟩
    rw [andThen, hsame finish more hmore]
    exact hsame' finish more hmore

theorem bind {p : Parse α} {f : α → Parse β} [Built p] [∀ x, Built (f x)]
    (hp : Unmoved strict p ctx s)
    (hf : ∀ x s', p ctx s = (some x, s') → Unmoved strict (f x) ctx s') :
    Unmoved strict (andThen p f) ctx s :=
  hp.bind_of_built inferInstance hf

theorem map {p : Parse α} [Built p] (hp : Unmoved strict p ctx s) (g : α → β) :
    Unmoved strict (andThen p fun x => Parse.give (g x)) ctx s :=
  hp.bind fun x _ _ => give (g x)

/-- A look at a token that is there. -/
theorem peek_cons {f : Option TokenKind → Parse β} {t : Token} {rest : List Token}
    (hs : s.rest = t :: rest) (h : Unmoved strict (f (some t.kind)) ctx s) :
    Unmoved strict (andThen Parse.peek f) ctx s := by
  intro hends hclean
  rw [peek_andThen, hs] at hclean ⊢
  obtain ⟨hsame, hrest⟩ := h hends hclean
  refine ⟨fun finish more hmore => ?_, hrest⟩
  rw [peek_andThen, Cursor.before_cons hs]
  exact hsame finish more hmore

/-- A look at what is next, where nothing is read at the end of the input nor before a page. -/
theorem peek {f : Option TokenKind → Parse β}
    (hsome : ∀ t rest, s.rest = t :: rest → Unmoved strict (f (some t.kind)) ctx s) {y : β}
    (hnone : f none = Parse.give y)
    (hpage : ∀ kind : TokenKind, kind.startsPage = true → f (some kind) = Parse.give y) :
    Unmoved strict (andThen Parse.peek f) ctx s := by
  cases hs : s.rest with
  | cons t rest => exact peek_cons hs (hsome t rest hs)
  | nil =>
    intro _ _
    rw [peek_andThen, hs, List.head?_nil, Option.map_none, hnone]
    refine ⟨fun finish more hmore => ?_, fun _ => nofun⟩
    obtain ⟨t, rest, rfl, ht⟩ := hmore
    rw [peek_andThen, Cursor.before_nil hs, List.head?_cons, Option.map_some, hpage _ ht]
    rfl

theorem attempt {p : Parse α} (hp : Unmoved false p ctx s) : Unmoved strict (attempt p) ctx s := by
  intro hends hclean
  obtain ⟨hsame, -⟩ := hp hends hclean
  refine ⟨fun finish more hmore => ?_, fun _ => nofun⟩
  rw [Parse.attempt, hsame finish more hmore]
  rfl

/-- The line that is skipped is one of those that are left. -/
theorem orSkipLine {p : Parse α} [Built p] (hp : Unmoved true p ctx s) :
    Unmoved false (orSkipLine p) ctx s := by
  intro hends hclean
  have hleads := Built.leads (p := p) inferInstance ctx s
  rw [orSkipLine.eq_def] at hclean ⊢
  rcases hps : p ctx s with ⟨_ | x, s'⟩ <;> rw [hps] at hclean hleads
  · obtain ⟨hsame, hrest⟩ := hp hends (by rw [hps]; exact ⟨hclean.not_halted, hclean.found⟩)
    rw [hps] at hsame hrest
    refine ⟨fun finish more hmore => ?_, Bool.noConfusion⟩
    rw [Parse.orSkipLine, hsame finish more hmore]
    exact congrArg (Prod.mk none) (skipLine_before (hrest rfl rfl) (hends.of_leads hleads) finish)
  · obtain ⟨hsame, -⟩ := hp hends (by rwa [hps])
    rw [hps] at hsame
    refine ⟨fun finish more hmore => ?_, Bool.noConfusion⟩
    rw [Parse.orSkipLine, hsame finish more hmore]

theorem within {p : Parse α} {rule : Rule}
    (hp : Unmoved strict p ctx { s with path := s.path ++ [rule] }) :
    Unmoved strict (within rule p) ctx s := by
  intro hends hclean
  obtain ⟨hsame, hrest⟩ := hp hends ⟨hclean.not_halted, hclean.found⟩
  refine ⟨fun finish more hmore => ?_, hrest⟩
  have hrun := hsame finish more hmore
  rw [Parse.within, show Cursor.mk (s.before more).rest ((s.before more).path ++ [rule])
    (s.before more).errors = Cursor.before { s with path := s.path ++ [rule] } more from rfl, hrun]
  rfl

/-- A loop that a page stops. -/
theorem loop {stops : TokenKind → Bool} {body : TokenKind → Parse α} [∀ kind, Built (body kind)]
    (hstops : ∀ kind : TokenKind, kind.startsPage = true → stops kind = true)
    (hbody : ∀ s t rest, s.rest = t :: rest → Unmoved false (body t.kind) ctx s) :
    Unmoved strict (loop stops body) ctx s := by
  have hbuilt : Built (Parse.loop stops body) := inferInstance
  intro hends hclean
  refine ⟨fun finish more hmore => ?_, fun _ h => ?_⟩
  -- where the tokens end alone, the page after them stops the loop
  · induction s using loop_induction stops body ctx with
    | nil s hs =>
      obtain ⟨t, rest, rfl, ht⟩ := hmore
      rw [loop_end hs, loop_stop (Cursor.before_nil hs _) (.inr (hstops _ ht))]
    | stop s t rest hs hstop =>
      rw [loop_stop hs hstop]
      exact loop_stop (Cursor.before_cons hs more) hstop
    | turn s t rest hs hhalt hnot ih =>
      have hhalt' : isHalted { ctx with finish := finish } (s.before more) = false := hhalt
      have hleads := (inferInstance : Built (body t.kind)).leads ctx s
      have hrun := fun hclean' => (hbody s t rest hs hends hclean').1 finish more hmore
      rw [loop_turn hs hhalt hnot] at hclean ⊢
      rw [loop_turn (Cursor.before_cons hs more) hhalt' hnot]
      split at hclean
      · next hlt =>
        rw [hrun (hclean.of_leads (hbuilt.leads ctx _)), if_pos hlt,
          if_pos (Cursor.before_lt.2 hlt), ih hlt (hends.of_leads hleads) hclean]
      · next hlt =>
        rw [hrun hclean, if_neg hlt, if_neg (mt Cursor.before_lt.1 hlt)]
  · obtain ⟨xs, s', hxs⟩ := loop_isSome stops body ctx s
    rw [hxs] at h
    cases h

/-- A repetition of something that does not begin with a page. -/
theorem repeatAt {kind : TokenKind} {body : Parse α} [Built body] (hkind : kind.startsPage = false)
    (hlt : ∀ ctx s, s.rest ≠ [] → (body ctx s).2.rest.length < s.rest.length)
    (hbody : ∀ s t rest, s.rest = t :: rest → Unmoved strict body ctx s) :
    Unmoved strict (repeatAt kind body) ctx s := by
  have hmore : ∀ {s : Cursor} {t rest}, s.rest = t :: rest → ∀ ctx x s',
      body ctx s = (some x, s') → s'.rest.length < s.rest.length := by
    intro s t rest hs ctx x s' hx
    rw [← show (body ctx s).2 = s' from congrArg Prod.snd hx]
    exact hlt ctx s (hs ▸ List.cons_ne_nil _ _)
  induction s using repeatAt_induction kind body ctx with
  | stop s hstop =>
    intro _ _
    rw [repeatAt_stop hstop]
    refine ⟨fun finish more hpage => ?_, fun _ => nofun⟩
    -- at the end of the tokens it is the page that stops the repetition
    cases hs : s.rest with
    | nil =>
      obtain ⟨t, rest, rfl, ht⟩ := hpage
      refine repeatAt_stop fun h => ?_
      rw [Cursor.before_nil hs] at h
      rw [Option.some.inj h, hkind] at ht
      cases ht
    | cons t rest =>
      refine repeatAt_stop ?_
      rw [hs] at hstop
      rwa [Cursor.before_cons hs]
  | turn s hhead ih =>
    obtain ⟨t, rest, hs, -⟩ := List.exists_cons_of_head?_map hhead
    have hturn : Unmoved strict (andThen body fun x =>
        andThen (Parse.repeatAt kind body) fun xs => Parse.give (x :: xs)) ctx s :=
      (hbody s t rest hs).bind fun x s' hx => (ih x s' hx (hmore hs ctx x s' hx)).map (x :: ·)
    intro hends hclean
    rw [repeatAt_step hhead (hmore hs ctx)] at hclean ⊢
    obtain ⟨hsame, hrest⟩ := hturn hends hclean
    refine ⟨fun finish more hpage => ?_, hrest⟩
    have hs' := Cursor.before_cons hs more
    have hhead' : (s.before more).rest.head?.map Token.kind = some kind := by
      rw [hs] at hhead
      rwa [hs']
    rw [repeatAt_step hhead' (hmore hs' _)]
    exact hsame finish more hpage

end Unmoved

end Parse

end Wireframe
