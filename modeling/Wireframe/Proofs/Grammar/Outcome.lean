import Wireframe.Proofs.Grammar.Turn
import Wireframe.Proofs.Row

/-!
# What a parse does with the tokens it reads

An account of a parse from a cursor (`Outcome`): it reads some tokens off the front and reports some
errors. What it gives is made of tokens that it has read, in the order of the source, and the errors
tell whether it left any out: with no error none is lost, with an error some are. A parse that gives
nothing has reported why. Where the limit on errors was reached before, nothing is reported any
more, and so nothing can be told from the errors; what is given is still made of tokens in order.

A parse that has this account from every cursor `Keeps` to it. The account of a compound parse is
put together from those of its parts (`Outcome.bind`, `Outcome.attempt`, `keeps_loop`).
-/

namespace Wireframe

namespace Parse

variable {α β : Type} {K : α → List Token → Prop} {L : β → List Token → Prop}

/-- What an answer says of the tokens `read` and the errors `reported`. `K` tells what an answer is
    made of, and `halted` whether the limit was reached before. -/
def Accounts (K : α → List Token → Prop) (halted : Bool) (read : List Token)
    (reported : List ParseError) : Option α → Prop
  | some x => ∃ used, K x used ∧ used.Sublist read ∧
      (reported = [] → halted = false → used = read) ∧
      (reported ≠ [] → used.length < read.length)
  | none => halted = false → reported ≠ []

/-- The account of a parse from the cursor `s` that ends in `r`. -/
def Outcome (K : α → List Token → Prop) (halted : Bool) (s : Cursor) (r : Option α × Cursor) :
    Prop :=
  ∃ read reported, s.rest = read ++ r.2.rest ∧ r.2.errors = s.errors ++ reported ∧
    r.2.path = s.path ∧ Accounts K halted read reported r.1

/-- A parse that has its account from every cursor. -/
def Keeps (K : α → List Token → Prop) (p : Parse α) : Prop :=
  ∀ ctx s, Outcome K (isHalted ctx s) s (p ctx s)

/-- The limit is reached after more errors if it was reached before. -/
theorem isHalted_mono {ctx : ParseContext} {s s' : Cursor} {es : List ParseError}
    (h : s'.errors = s.errors ++ es) (hs : isHalted ctx s = true) : isHalted ctx s' = true := by
  simp only [isHalted, decide_eq_true_eq, h, List.length_append] at hs ⊢
  omega

/-- Without new errors the limit is reached exactly if it was before. -/
theorem isHalted_congr {ctx : ParseContext} {s s' : Cursor} (h : s'.errors = s.errors) :
    isHalted ctx s' = isHalted ctx s := by
  simp only [isHalted, h]

/-! ## One parse after the other -/

theorem bind_eq (p : Parse α) (f : α → Parse β) : p >>= f = andThen p f := rfl

theorem peek_andThen (f : Option TokenKind → Parse β) (ctx : ParseContext) (s : Cursor) :
    andThen peek f ctx s = f (s.rest.head?.map Token.kind) ctx s := rfl

theorem andThen_some {p : Parse α} {x : α} {ctx : ParseContext} {s s' : Cursor}
    (h : p ctx s = (some x, s')) (f : α → Parse β) : andThen p f ctx s = f x ctx s' := by
  rw [andThen, h]

theorem next_cons {s : Cursor} {t : Token} {rest : List Token} (h : s.rest = t :: rest)
    (ctx : ParseContext) : next ctx s = (some t, { s with rest := rest }) := by
  rw [next, h]

theorem reportAt_fail_eq {ctx : ParseContext} {s : Cursor} (hhalt : isHalted ctx s = false)
    (found : Option Token) (e : Expectation) :
    andThen (reportAt found e) (fun _ => (fail : Parse α)) ctx s =
      (none, { s with errors := s.errors ++
        [⟨e, found, (found.map Token.range).getD ctx.finish, s.path⟩] }) := by
  rw [andThen, reportAt, hhalt]
  rfl

theorem refuse_eq {ctx : ParseContext} {s : Cursor} (hhalt : isHalted ctx s = false)
    (e : Expectation) :
    (refuse e : Parse α) ctx s = (none, { s with errors := s.errors ++
      [⟨e, s.rest.head?, (s.rest.head?.map Token.range).getD ctx.finish, s.path⟩] }) :=
  reportAt_fail_eq hhalt s.rest.head? e

namespace Outcome

theorem give {x : α} (h : K x []) (halted : Bool) (ctx : ParseContext) (s : Cursor) :
    Outcome K halted s (Parse.give x ctx s) :=
  ⟨[], [], rfl, (List.append_nil _).symm, rfl, [], h, .slnil, fun _ _ => rfl,
    fun hne => absurd rfl hne⟩

theorem mono {K' : α → List Token → Prop} {halted : Bool} {s : Cursor} {r : Option α × Cursor}
    (hK : ∀ x used, K x used → K' x used) (h : Outcome K halted s r) :
    Outcome K' halted s r := by
  obtain ⟨read, reported, hr, he, hp, h⟩ := h
  refine ⟨read, reported, hr, he, hp, ?_⟩
  cases hx : r.1 with
  | none => rwa [hx] at h
  | some x =>
    rw [hx] at h
    obtain ⟨used, hu, h⟩ := h
    exact ⟨used, hK _ _ hu, h⟩

theorem length_le {halted : Bool} {s : Cursor} {r : Option α × Cursor} (h : Outcome K halted s r) :
    r.2.rest.length ≤ s.rest.length := by
  obtain ⟨read, -, hr, -⟩ := h
  rw [hr, List.length_append]
  exact Nat.le_add_left _ _

/-- One parse after the other: what the second gives is made of the tokens of both. -/
theorem bind {p : Parse α} {f : α → Parse β} {ctx : ParseContext} {s : Cursor}
    (hp : Outcome K (isHalted ctx s) s (p ctx s))
    (hf : ∀ x s' used, p ctx s = (some x, s') → K x used →
      Outcome (fun y more => L y (used ++ more)) (isHalted ctx s') s' (f x ctx s')) :
    Outcome L (isHalted ctx s) s (andThen p f ctx s) := by
  obtain ⟨read, reported, hrest, herrors, hpath, h⟩ := hp
  rw [andThen]
  rcases hps : p ctx s with ⟨_ | x, s'⟩ <;> rw [hps] at hrest herrors hpath h
  · exact ⟨read, reported, hrest, herrors, hpath, h⟩
  obtain ⟨used, hK, hsub, hall, hless⟩ := h
  obtain ⟨read', reported', hrest', herrors', hpath', h'⟩ := hf x s' used hps hK
  refine ⟨read ++ read', reported ++ reported', ?_, ?_, hpath'.trans hpath, ?_⟩
  · rw [hrest, hrest', List.append_assoc]
  · rw [herrors', herrors, List.append_assoc]
  -- without errors from the first parse the limit is where it was
  have hhalt : reported = [] → isHalted ctx s' = isHalted ctx s := fun h0 =>
    isHalted_congr (by rw [herrors, h0, List.append_nil])
  cases hy : (f x ctx s').1 with
  | none =>
    rw [hy] at h'
    intro hs hnil
    obtain ⟨h0, h0'⟩ := List.append_eq_nil_iff.1 hnil
    exact h' ((hhalt h0).trans hs) h0'
  | some y =>
    rw [hy] at h'
    obtain ⟨used', hL, hsub', hall', hless'⟩ := h'
    refine ⟨used ++ used', hL, hsub.append hsub', ?_, ?_⟩
    · intro hnil hs
      obtain ⟨h0, h0'⟩ := List.append_eq_nil_iff.1 hnil
      rw [hall h0 hs, hall' h0' ((hhalt h0).trans hs)]
    · intro hne
      have hle := hsub.length_le
      have hle' := hsub'.length_le
      rw [List.length_append, List.length_append]
      by_cases h0 : reported = []
      · have := hless' fun h0' => hne (by rw [h0, h0', List.nil_append])
        omega
      · have := hless h0
        omega

end Outcome

theorem Keeps.bind {p : Parse α} {f : α → Parse β} (hp : Keeps K p)
    (hf : ∀ x used, K x used → Keeps (fun y more => L y (used ++ more)) (f x)) :
    Keeps L (andThen p f) := fun ctx s =>
  (hp ctx s).bind fun x s' used _ hK => hf x used hK ctx s'

theorem Keeps.mono {K' : α → List Token → Prop} {p : Parse α}
    (hK : ∀ x used, K x used → K' x used) (h : Keeps K p) : Keeps K' p := fun ctx s =>
  (h ctx s).mono hK

theorem keeps_give {x : α} (h : K x []) : Keeps K (give x) := fun ctx s =>
  .give h _ ctx s

/-! ## Refusing and expecting -/

/-- A report leaves the tokens where they are; it adds an error unless the limit is reached. -/
theorem reportAt_eq (found : Option Token) (e : Expectation) (ctx : ParseContext) (s : Cursor) :
    ∃ es, reportAt found e ctx s = (some (), { s with errors := s.errors ++ es }) ∧
      (isHalted ctx s = false → es ≠ []) := by
  rw [reportAt]
  split
  · next h => exact ⟨[], by rw [List.append_nil], fun hs => absurd h (by rw [hs]; decide)⟩
  · exact ⟨_, rfl, fun _ => List.cons_ne_nil _ _⟩

theorem keeps_reportAt_fail (found : Option Token) (e : Expectation) :
    Keeps K (andThen (reportAt found e) fun _ => (fail : Parse α)) := by
  intro ctx s
  obtain ⟨es, h, hne⟩ := reportAt_eq found e ctx s
  rw [andThen, h]
  exact ⟨[], es, rfl, rfl, rfl, hne⟩

theorem keeps_refuse (e : Expectation) : Keeps K (refuse e : Parse α) := fun ctx s =>
  keeps_reportAt_fail s.rest.head? e ctx s

/-- Where a parse refuses, what would come after it is left out. -/
theorem outcome_of_refuse {p : Parse α} {e : Expectation} {ctx : ParseContext} {s : Cursor}
    (h : p ctx s = refuse e ctx s) (f : α → Parse β) :
    Outcome L (isHalted ctx s) s (andThen p f ctx s) :=
  Outcome.bind (K := fun _ _ => False) (h ▸ keeps_refuse e ctx s) fun _ _ _ _ h => h.elim

/-- The next token, if there is one. -/
theorem outcome_next {K : Token → List Token → Prop} {t : Token} {rest : List Token} {s : Cursor}
    (hs : s.rest = t :: rest) (hK : K t [t]) (halted : Bool) (ctx : ParseContext) :
    Outcome K halted s (next ctx s) := by
  rw [next_cons hs]
  exact ⟨[t], [], hs, (List.append_nil _).symm, rfl, [t], hK, .refl _, fun _ _ => rfl,
    fun hne => absurd rfl hne⟩

/-! ## Recovery -/

/-- What may be missing: it is made of no tokens then. -/
def Optional (K : α → List Token → Prop) : Option α → List Token → Prop
  | some x, used => K x used
  | none, used => used = []

theorem optional_none : Optional K none [] := rfl

/-- Going on without an answer loses tokens, as long as some were read. -/
theorem Outcome.attempt {p : Parse α} {halted : Bool} {ctx : ParseContext} {s : Cursor}
    (h : Outcome K halted s (p ctx s))
    (hnone : (p ctx s).1 = none → (p ctx s).2.rest.length < s.rest.length) :
    Outcome (Optional K) halted s (attempt p ctx s) := by
  obtain ⟨read, reported, hrest, herrors, hpath, h⟩ := h
  refine ⟨read, reported, hrest, herrors, hpath, ?_⟩
  change Accounts (Optional K) halted read reported (some (p ctx s).1)
  cases hx : (p ctx s).1 with
  | some x => rwa [hx] at h
  | none =>
    rw [hx] at h
    refine ⟨[], rfl, List.nil_sublist _, fun h0 hs => absurd h0 (h hs), fun _ => ?_⟩
    have := hnone hx
    rw [hrest, List.length_append] at this
    exact Nat.pos_of_ne_zero fun h0 => by omega

/-- The tokens up to a line end, and it too. -/
theorem skipLine_eq (ctx : ParseContext) (s : Cursor) :
    ∃ skipped, s.rest = skipped ++ (skipLine ctx s).2.rest ∧ (s.rest ≠ [] → skipped ≠ []) := by
  have htail : ∀ l : List Token, ∃ a, l = a ++ l.tail ∧ (l ≠ [] → a ≠ []) := by
    intro l
    cases l with
    | nil => exact ⟨[], rfl, id⟩
    | cons t l => exact ⟨[t], rfl, fun _ => List.cons_ne_nil _ _⟩
  obtain ⟨a, ha, hne⟩ := htail (s.rest.dropWhile (·.kind ≠ .lineEnd))
  refine ⟨s.rest.takeWhile (·.kind ≠ .lineEnd) ++ a, ?_, fun hs h0 => ?_⟩
  · rw [List.append_assoc, skipLine, ← ha, List.takeWhile_append_dropWhile]
  · obtain ⟨h1, h2⟩ := List.append_eq_nil_iff.1 h0
    refine hne (fun h3 => hs ?_) h2
    rw [← List.takeWhile_append_dropWhile (p := (·.kind ≠ .lineEnd)) (l := s.rest), h1, h3]
    rfl

theorem Keeps.orSkipLine {p : Parse α} (h : Keeps K p) : Keeps K (orSkipLine p) := by
  intro ctx s
  obtain ⟨read, reported, hrest, herrors, hpath, h⟩ := h ctx s
  rw [Parse.orSkipLine]
  rcases hps : p ctx s with ⟨_ | x, s'⟩ <;> rw [hps] at hrest herrors hpath h
  · obtain ⟨skipped, hskip, _⟩ := skipLine_eq ctx s'
    refine ⟨read ++ skipped, reported, ?_, herrors, hpath, h⟩
    rw [List.append_assoc, ← hskip, hrest]
  · exact ⟨read, reported, hrest, herrors, hpath, h⟩

/-- A parse with recovery reads something, if what it gives is made of something. -/
theorem orSkipLine_lt {p : Parse α} (h : Keeps K p) (hK : ∀ x used, K x used → used ≠ [])
    {s : Cursor} (hs : s.rest ≠ []) (ctx : ParseContext) :
    (orSkipLine p ctx s).2.rest.length < s.rest.length := by
  obtain ⟨read, reported, hrest, -, -, h⟩ := h ctx s
  rw [orSkipLine]
  rcases hps : p ctx s with ⟨_ | x, s'⟩ <;> rw [hps] at hrest h
  · obtain ⟨skipped, hskip, hne⟩ := skipLine_eq ctx s'
    have hlen := congrArg List.length hskip
    rw [List.length_append] at hlen
    rw [hrest, List.length_append]
    -- nothing is skipped at the end of the input, but then something was read before
    cases hr : s'.rest with
    | nil =>
      rw [hr, List.length_nil] at hlen
      have : read ≠ [] := fun h0 => hs (by rw [hrest, h0]; exact hr)
      have := List.length_pos_iff.2 this
      change (skipLine ctx s').2.rest.length < read.length + _
      omega
    | cons t rest =>
      have := List.length_pos_iff.2 (hne (by rw [hr]; exact List.cons_ne_nil _ _))
      change (skipLine ctx s').2.rest.length < _
      rw [hr] at hlen
      omega
  · obtain ⟨used, hu, hsub, -⟩ := h
    have := List.length_pos_iff.2 (hK _ _ hu)
    have := hsub.length_le
    rw [hrest, List.length_append]
    change s'.rest.length < read.length + s'.rest.length
    omega

/-- A parse as a part of a rule leaves the path as it was. -/
theorem Outcome.within {p : Parse α} {rule : Rule} {halted : Bool} {ctx : ParseContext} {s : Cursor}
    (h : Outcome K halted { s with path := s.path ++ [rule] }
      (p ctx { s with path := s.path ++ [rule] })) :
    Outcome K halted s (within rule p ctx s) := by
  obtain ⟨read, reported, hrest, herrors, hpath, h⟩ := h
  refine ⟨read, reported, hrest, herrors, ?_, h⟩
  change List.dropLast (p ctx _).2.path = s.path
  rw [hpath, List.dropLast_concat]

theorem Keeps.within {p : Parse α} (h : Keeps K p) (rule : Rule) : Keeps K (within rule p) :=
  fun ctx s => .within (h ctx { s with path := s.path ++ [rule] })

/-- A parse of something that a line can begin with: it reads something, if there is anything to
    read. -/
structure KeepsLine (K : α → List Token → Prop) (p : Parse α) : Prop where
  keeps : Keeps K p
  lt : ∀ ctx s, s.rest ≠ [] → (p ctx s).2.rest.length < s.rest.length

theorem Keeps.line {p : Parse α} (h : Keeps K p) (hK : ∀ x used, K x used → used ≠ []) :
    KeepsLine K (Parse.orSkipLine p) :=
  ⟨h.orSkipLine, fun ctx _ hs => orSkipLine_lt h hK hs ctx⟩

theorem KeepsLine.within {p : Parse α} (h : KeepsLine K p) (rule : Rule) :
    KeepsLine K (Parse.within rule p) :=
  ⟨h.keeps.within rule, fun ctx s hs => h.lt ctx { s with path := s.path ++ [rule] } hs⟩

theorem KeepsLine.map {p : Parse α} (h : KeepsLine K p) {f : α → β}
    (hL : ∀ x used, K x used → L (f x) used) :
    KeepsLine L (andThen p fun x => Parse.give (f x)) where
  keeps := h.keeps.bind fun x used hK => keeps_give (by rw [List.append_nil]; exact hL x used hK)
  lt ctx s hs := by
    have hlt := h.lt ctx s hs
    rw [andThen]
    rcases hps : p ctx s with ⟨_ | x, s'⟩ <;> rw [hps] at hlt <;> exact hlt

theorem keepsLine_refuseLine (e : Expectation) : KeepsLine K (refuseLine e : Parse α) := by
  have h : KeepsLine (fun _ _ => False) (refuseLine e : Parse α) :=
    (keeps_refuse e).line fun _ _ h => h.elim
  exact ⟨h.keeps.mono fun _ _ h => h.elim, h.lt⟩

theorem KeepsLine.proceeds {p : Parse α} (h : KeepsLine K p) {ctx : ParseContext} {s : Cursor}
    {t : Token} {rest : List Token} (hs : s.rest = t :: rest) (hhalt : isHalted ctx s = false) :
    Outcome K false s (p ctx s) ∧ (p ctx s).2.rest.length < s.rest.length :=
  ⟨hhalt ▸ h.keeps ctx s, h.lt ctx s (hs ▸ List.cons_ne_nil _ _)⟩

theorem KeepsLine.attempt {p : Parse α} (h : KeepsLine K p) {ctx : ParseContext} {s : Cursor}
    (hs : s.rest ≠ []) : Outcome (Optional K) (isHalted ctx s) s (Parse.attempt p ctx s) :=
  (h.keeps ctx s).attempt fun _ => h.lt ctx s hs

/-- A parse that comes after one with an answer, or, without an answer, gives none itself: a part of
    the tree whose first line cannot be parsed is lost, and that was reported. -/
theorem Outcome.bind_attempt {p : Parse α} {f : Option α → Parse β}
    {ctx : ParseContext} {s : Cursor} (hp : Outcome K (isHalted ctx s) s (p ctx s))
    (hsome : ∀ x s' used, p ctx s = (some x, s') → K x used →
      Outcome (fun y more => L y (used ++ more)) (isHalted ctx s') s' (f (some x) ctx s'))
    (hnone : ∀ s', p ctx s = (none, s') → Outcome (fun _ _ => False) true s' (f none ctx s')) :
    Outcome L (isHalted ctx s) s (andThen (Parse.attempt p) f ctx s) := by
  cases hx : (p ctx s).1 with
  | some x =>
    have hps : p ctx s = (some x, (p ctx s).2) := Prod.ext hx rfl
    have hsame : andThen (Parse.attempt p) f ctx s = andThen p (fun x => f (some x)) ctx s := by
      rw [andThen, andThen, Parse.attempt, hps]
    exact hsame ▸ hp.bind hsome
  | none =>
    have hps : p ctx s = (none, (p ctx s).2) := Prod.ext hx rfl
    obtain ⟨read, reported, hrest, herrors, hpath, h⟩ := hp
    obtain ⟨read', reported', hrest', herrors', hpath', h'⟩ := hnone _ hps
    have hsame : andThen (Parse.attempt p) f ctx s = f none ctx (p ctx s).2 := by
      rw [andThen, Parse.attempt, hps]
    rw [hsame]
    refine ⟨read ++ read', reported ++ reported', ?_, ?_, hpath'.trans hpath, ?_⟩
    · rw [hrest, hrest', List.append_assoc]
    · rw [herrors', herrors, List.append_assoc]
    rw [hx] at h
    -- when the first part is lost, the whole is, so no tokens need be accounted for
    cases hy : (f none ctx (p ctx s).2).1 with
    | none => exact fun hs h0 => h hs (List.append_eq_nil_iff.1 h0).1
    | some y =>
      rw [hy] at h'
      exact absurd h'.choose_spec.1 id

/-- What is parsed is given up. -/
theorem Outcome.andThen_fail {p : Parse α} {halted : Bool} {ctx : ParseContext} {s : Cursor}
    (hp : Outcome K halted s (p ctx s)) :
    Outcome L true s (andThen p (fun _ => fail) ctx s) := by
  obtain ⟨read, reported, hrest, herrors, hpath, -⟩ := hp
  rw [andThen]
  rcases hps : p ctx s with ⟨_ | x, s'⟩ <;> rw [hps] at hrest herrors hpath <;>
    exact ⟨read, reported, hrest, herrors, hpath, fun h => absurd h (by decide)⟩

/-- An answer that is made of nothing is dropped. As something was read, that was reported. -/
theorem Outcome.dropEmpty {p : Parse α} {isEmpty : α → Bool} {ctx : ParseContext} {s : Cursor}
    (hp : Outcome K (isHalted ctx s) s (p ctx s))
    (hlt : (p ctx s).2.rest.length < s.rest.length)
    (hempty : ∀ x used, K x used → isEmpty x = true → used = []) :
    Outcome (fun x used => K x used ∧ isEmpty x = false) (isHalted ctx s) s
      (andThen p (fun x => if isEmpty x then fail else Parse.give x) ctx s) := by
  obtain ⟨read, reported, hrest, herrors, hpath, h⟩ := hp
  rw [andThen]
  rcases hps : p ctx s with ⟨_ | x, s'⟩ <;> rw [hps] at hrest herrors hpath h hlt
  · exact ⟨read, reported, hrest, herrors, hpath, h⟩
  obtain ⟨used, hK, hsub, hall, hless⟩ := h
  dsimp only
  split
  · next he =>
    refine ⟨read, reported, hrest, herrors, hpath, fun hs h0 => ?_⟩
    have hread : read = [] := (hall h0 hs).symm.trans (hempty x used hK he)
    rw [hrest, hread] at hlt
    exact absurd hlt (Nat.lt_irrefl _)
  · next he =>
    exact ⟨read, reported, hrest, herrors, hpath, used, ⟨hK, Bool.not_eq_true _ ▸ he⟩, hsub, hall,
      hless⟩

/-- A parse that reads something and then goes on has read something. -/
theorem andThen_lt {p : Parse α} {f : α → Parse β} {ctx : ParseContext} {s : Cursor}
    (hp : (p ctx s).2.rest.length < s.rest.length)
    (hf : ∀ x s', p ctx s = (some x, s') → (f x ctx s').2.rest.length ≤ s'.rest.length) :
    (andThen p f ctx s).2.rest.length < s.rest.length := by
  rw [andThen]
  rcases hps : p ctx s with ⟨_ | x, s'⟩ <;> rw [hps] at hp
  · exact hp
  · exact Nat.lt_of_le_of_lt (hf x s' hps) hp

/-! ## Repetition -/

/-- A loop body that keeps to its account and reads something wherever the loop goes on. -/
def Proceeds (K : α → List Token → Prop) (stops : TokenKind → Bool)
    (body : TokenKind → Parse α) : Prop :=
  ∀ ctx s t rest, s.rest = t :: rest → isHalted ctx s = false → stops t.kind = false →
    Outcome K false s (body t.kind ctx s) ∧ (body t.kind ctx s).2.rest.length < s.rest.length

section Loop

variable {stops : TokenKind → Bool} {body : TokenKind → Parse α} {ctx : ParseContext} {s : Cursor}

/-- A loop gives its members in the order of the source. -/
theorem keeps_loop (h : Proceeds K stops body) : Keeps (Members K) (loop stops body) := by
  intro ctx s
  induction s using loop_induction stops body ctx with
  | nil s hs =>
    rw [loop_end hs]
    exact .give .nil _ ctx s
  | stop s t rest hs hstop =>
    rw [loop_stop hs hstop]
    exact .give .nil _ ctx s
  | turn s t rest hs hhalt hstops ih =>
    obtain ⟨hout, hlt⟩ := h ctx s t rest hs hhalt hstops
    rw [loop_step hs hhalt hstops hlt]
    rw [← hhalt] at hout
    refine (hout.attempt fun _ => hlt).bind fun x s' used hx hK => ?_
    obtain rfl : (body t.kind ctx s).2 = s' := congrArg Prod.snd hx
    refine (ih hlt).bind fun xs s'' more _ hM => .give ?_ _ ctx s''
    rw [List.append_nil]
    cases x with
    | none => rwa [show used = [] from hK]
    | some x => exact .cons hK hM

/-- A loop that goes on at all reads something. -/
theorem loop_lt (h : Proceeds K stops body) {t : Token} {rest : List Token}
    (hs : s.rest = t :: rest) (hhalt : isHalted ctx s = false) (hstops : stops t.kind = false) :
    (loop stops body ctx s).2.rest.length < s.rest.length := by
  have hlt := (h ctx s t rest hs hhalt hstops).2
  rw [loop_step_snd hs hhalt hstops hlt]
  exact Nat.lt_of_le_of_lt (keeps_loop h ctx _).length_le hlt

/-- A loop stops for a reason: at the end of the input, at the limit on errors, or at a token that
    stops it. -/
theorem loop_stops (h : ∀ ctx s t rest, s.rest = t :: rest → isHalted ctx s = false →
      stops t.kind = false → (body t.kind ctx s).2.rest.length < s.rest.length) :
    (loop stops body ctx s).2.rest = [] ∨ isHalted ctx (loop stops body ctx s).2 = true ∨
      ∃ t rest, (loop stops body ctx s).2.rest = t :: rest ∧ stops t.kind = true := by
  induction s using loop_induction stops body ctx with
  | nil s hs =>
    rw [loop_end hs]
    exact .inl hs
  | stop s t rest hs hstop =>
    rw [loop_stop hs hstop]
    exact .inr (hstop.imp_right fun ht => ⟨t, rest, hs, ht⟩)
  | turn s t rest hs hhalt hstops ih =>
    have hlt := h ctx s t rest hs hhalt hstops
    rw [loop_step_snd hs hhalt hstops hlt]
    exact ih hlt

end Loop

section RepeatAt

variable {kind : TokenKind} {body : Parse α}

/-- A repetition gives its members in the order of the source. -/
theorem keeps_repeatAt (hK : ∀ x used, K x used → used ≠ [])
    (h : ∀ ctx s t rest, s.rest = t :: rest → t.kind = kind →
      Outcome K (isHalted ctx s) s (body ctx s)) :
    Keeps (Members K) (repeatAt kind body) := by
  intro ctx s
  induction s using repeatAt_induction kind body ctx with
  | stop s hs =>
    rw [repeatAt_stop hs]
    exact .give .nil _ ctx s
  | turn s hs ih =>
    obtain ⟨t, ht, hkind⟩ := Option.map_eq_some_iff.1 hs
    obtain ⟨rest, hrest⟩ := List.head?_eq_some_iff.1 ht
    have hout := h ctx s t rest hrest hkind
    -- what a turn gives is made of some of the tokens that it reads
    have hlt : ∀ x s', body ctx s = (some x, s') → s'.rest.length < s.rest.length := by
      intro x s' hb
      obtain ⟨read, _, hr, _, _, hacc⟩ := hout
      rw [hb] at hr hacc
      obtain ⟨used, hu, hsub, -⟩ := hacc
      have := List.length_pos_iff.2 (hK _ _ hu)
      have := hsub.length_le
      rw [hr, List.length_append]
      change s'.rest.length < read.length + s'.rest.length
      omega
    rw [repeatAt_step hs hlt]
    refine hout.bind fun x s' used hx hKx => ?_
    refine (ih x s' hx (hlt x s' hx)).bind fun xs s'' more _ hM => .give ?_ _ ctx s''
    rw [List.append_nil]
    exact .cons hKx hM

end RepeatAt

end Parse

end Wireframe
