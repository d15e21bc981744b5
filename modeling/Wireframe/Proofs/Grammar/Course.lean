import Mathlib.Data.List.Infix
import Wireframe.Proofs.Grammar.Account
import Wireframe.Proofs.Grammar.Boundary

/-!
# The course of errors

What a parse reports goes along with the tokens that it reads (`Reports`). An error ends what is
parsed of a line: the rest of it is skipped, and nothing more is said about it. Only a number that
is no count is passed over, so that something else may still be wrong with its line. At the end of
the input an error is reported only within a line, or after the first line of a list (`IsMissing`).

Every rule keeps to this, wherever the limit on errors cuts it short (`Parse.later_scene`). The
rules are of three sorts. Some stay in a line (`Words`), some read up to its end (`Ends`), and
what is parsed with recovery begins with a line and stops where one begins, or at the end of the
input (`Lines`, `Later`).
-/

namespace Wireframe

/-- What was reported of the line that a parse is on. -/
inductive Blamed
  | nothing
  /-- A number that is no count, which the parse has left behind. -/
  | count
  /-- Anything else. -/
  | other

namespace Parse

/-- Before `rest` there stands the keyword of a list, with a title or without one. -/
def FollowsList (tokens rest : List Token) : Prop :=
  ∃ (before : List Token) (k : Token) (title : Option Token),
    tokens = before ++ k :: title.toList ++ rest ∧ k.kind = .keyword .list ∧
      ∀ t ∈ title, t.kind.startsValue = true

/-- The last line is the first one of a list, and lacks the words that tell what the list consists
    of. -/
def EndsInListHead (tokens : List Token) : Prop :=
  ∃ e : Token, e.kind = .lineEnd ∧ FollowsList tokens [e]

/-- Whether something may be reported as missing at the end of some tokens. -/
def IsMissing (tokens : List Token) (e : Expectation) : Prop :=
  ¬ EndsLine tokens ∨ e = .consistsOf ∧ EndsInListHead tokens

/-! ## Errors along the tokens -/

/-- A parse that has `rest` left reads some of it and reports errors on the way. A count is blamed
    as it is read, everything else before; either happens at most once on a line, a count first. -/
inductive Reports (tokens : List Token) :
    Blamed → List Token → List ParseError → Blamed → List Token → Prop
  | stay (σ : Blamed) (rest : List Token) : Reports tokens σ rest [] σ rest
  | word {σ τ t rest es rest'} (ht : t.kind ≠ .lineEnd) (h : Reports tokens σ rest es τ rest') :
    Reports tokens σ (t :: rest) es τ rest'
  | lineEnd {σ τ t rest es rest'} (ht : t.kind = .lineEnd)
    (h : Reports tokens .nothing rest es τ rest') : Reports tokens σ (t :: rest) es τ rest'
  | count {τ t rest e es rest'} (ht : t.kind ≠ .lineEnd) (he : e.expectation = .count)
    (hfound : e.found = some t) (h : Reports tokens .count rest es τ rest') :
    Reports tokens .nothing (t :: rest) (e :: es) τ rest'
  | other {σ τ rest e es rest'} (hσ : σ ≠ .other) (he : e.expectation ≠ .count)
    (hfound : e.found = rest.head?) (hend : rest = [] → IsMissing tokens e.expectation)
    (h : Reports tokens .other rest es τ rest') : Reports tokens σ rest (e :: es) τ rest'

variable {α β : Type} {tokens rest rest' rest'' : List Token} {σ τ υ : Blamed} {e : Expectation}
  {es es' : List ParseError} {t : Token}

namespace Reports

theorem trans (h : Reports tokens σ rest es τ rest') (h' : Reports tokens τ rest' es' υ rest'') :
    Reports tokens σ rest (es ++ es') υ rest'' := by
  induction h with
  | stay => exact h'
  | word ht _ ih => exact .word ht (ih h')
  | lineEnd ht _ ih => exact .lineEnd ht (ih h')
  | count ht he hfound _ ih => exact .count ht he hfound (ih h')
  | other hσ he hfound hend _ ih => exact .other hσ he hfound hend (ih h')

theorem suffix (h : Reports tokens σ rest es τ rest') : rest' <:+ rest := by
  induction h with
  | stay => exact List.suffix_rfl
  | word _ _ ih | lineEnd _ _ ih | count _ _ _ _ ih => exact ih.trans (List.suffix_cons _ _)
  | other _ _ _ _ _ ih => exact ih

/-- To skip a line is to read it. -/
theorem skipLine (tokens : List Token) (σ : Blamed) (rest : List Token) :
    ∃ τ, Reports tokens σ rest [] τ (rest.dropWhile (·.kind ≠ .lineEnd)).tail ∧
      ((rest.dropWhile (·.kind ≠ .lineEnd)).tail = [] ∨ τ = .nothing) := by
  induction rest with
  | nil => exact ⟨σ, .stay σ [], .inl rfl⟩
  | cons t rest ih =>
    by_cases ht : t.kind = .lineEnd
    · rw [List.dropWhile_cons_of_neg (by simpa using ht)]
      exact ⟨.nothing, .lineEnd ht (.stay _ _), .inr rfl⟩
    · rw [List.dropWhile_cons_of_pos (by simpa using ht)]
      obtain ⟨τ, h, hτ⟩ := ih
      exact ⟨τ, .word ht h, hτ⟩

end Reports

/-! ## What is reported by a parse -/

/-- The report of a parse from the cursor `s`, on a line of which `σ` was reported, that ends in
    `r`. `Q` holds where it gives something, and `N` where it does not. -/
def Told (tokens : List Token) (σ : Blamed) (Q N : Blamed → List Token → Prop) (s : Cursor)
    (r : Option α × Cursor) : Prop :=
  ∃ es τ, r.2.errors = s.errors ++ es ∧ Reports tokens σ s.rest es τ r.2.rest ∧
    r.1.elim (N τ r.2.rest) fun _ => Q τ r.2.rest

/-- A parse stands within a line, or before one that is there. -/
structure Begun (tokens : List Token) (σ : Blamed) (rest : List Token) : Prop where
  suffix : rest <:+ tokens
  ne_other : σ ≠ .other
  within : rest = [] → ¬ EndsLine tokens

/-- A parse stands where a line begins, or at the end of the input. -/
structure Settled (tokens : List Token) (σ : Blamed) (rest : List Token) : Prop where
  suffix : rest <:+ tokens
  fresh : rest = [] ∨ σ = .nothing

theorem Begun.word (h : Begun tokens σ (t :: rest)) (ht : t.kind ≠ .lineEnd) :
    Begun tokens σ rest := by
  refine ⟨(List.suffix_cons t rest).trans h.suffix, h.ne_other, ?_⟩
  rintro rfl hends
  obtain ⟨before, rfl⟩ := h.suffix
  exact ht (hends t (by rw [List.getLast?_concat]; rfl))

theorem Begun.of_cons (h : t :: rest <:+ tokens) : Begun tokens .nothing (t :: rest) :=
  ⟨h, Blamed.noConfusion, fun h0 => absurd h0 (List.cons_ne_nil _ _)⟩

/-- What a parse comes to that has nothing to recover from. -/
def Anywhere : Blamed → List Token → Prop := fun _ _ => True

namespace Told

variable {ctx : ParseContext} {s : Cursor} {p : Parse α} {Q R N : Blamed → List Token → Prop}

theorem stay {x : α} (h : Q σ s.rest) : Told tokens σ Q N s (some x, s) :=
  ⟨[], σ, (List.append_nil _).symm, .stay _ _, h⟩

theorem mono {Q' N' : Blamed → List Token → Prop} {r : Option α × Cursor}
    (h : Told tokens σ Q N s r) (hQ : ∀ τ rest, Q τ rest → Q' τ rest)
    (hN : ∀ τ rest, N τ rest → N' τ rest) : Told tokens σ Q' N' s r := by
  obtain ⟨es, τ, herrors, hreports, h⟩ := h
  refine ⟨es, τ, herrors, hreports, ?_⟩
  obtain ⟨_ | x, s'⟩ := r
  · exact hN τ _ h
  · exact hQ τ _ h

theorem word (hs : s.rest = t :: rest) (ht : t.kind ≠ .lineEnd) (h : Q σ rest) :
    Told tokens σ Q N s (next ctx s) := by
  rw [next_cons hs]
  exact ⟨[], σ, (List.append_nil _).symm, hs ▸ .word ht (.stay _ _), h⟩

theorem lineEnd (hs : s.rest = t :: rest) (ht : t.kind = .lineEnd) (h : Q .nothing rest) :
    Told tokens σ Q N s (next ctx s) := by
  rw [next_cons hs]
  exact ⟨[], .nothing, (List.append_nil _).symm, hs ▸ .lineEnd ht (.stay _ _), h⟩

/-- A refusal is reported, unless the limit is reached. -/
theorem refuse (hσ : σ ≠ .other) (he : e ≠ .count) (hend : s.rest = [] → IsMissing tokens e) :
    Told tokens σ Q Anywhere s (refuse e ctx s : Option α × Cursor) := by
  cases hhalt : isHalted ctx s with
  | true =>
    have hrefuse : (Parse.refuse e : Parse α) ctx s = (none, s) := by
      rw [Parse.refuse, andThen, report, reportAt, hhalt]
      rfl
    rw [hrefuse]
    exact ⟨[], σ, (List.append_nil _).symm, .stay _ _, trivial⟩
  | false =>
    rw [refuse_eq hhalt]
    exact ⟨_, .other, rfl, .other hσ he rfl hend (.stay _ _), trivial⟩

theorem bind {f : α → Parse β} (hp : Told tokens σ R N s (p ctx s))
    (hf : ∀ x τ s', R τ s'.rest → Told tokens τ Q N s' (f x ctx s')) :
    Told tokens σ Q N s (andThen p f ctx s) := by
  obtain ⟨es, τ, herrors, hreports, h⟩ := hp
  rw [andThen]
  rcases hps : p ctx s with ⟨_ | x, s'⟩ <;> rw [hps] at herrors hreports h
  · exact ⟨es, τ, herrors, hreports, h⟩
  · obtain ⟨es', υ, herrors', hreports', h'⟩ := hf x τ s' h
    refine ⟨es ++ es', υ, ?_, hreports.trans hreports', h'⟩
    rw [herrors', herrors, List.append_assoc]

theorem map {f : α → β} (h : Told tokens σ Q N s (p ctx s)) :
    Told tokens σ Q N s (andThen p (fun x => give (f x)) ctx s) :=
  h.bind fun _ _ _ hQ => stay hQ

/-- Where it does not matter what is given. -/
theorem exists_of {r : Option α × Cursor} (h : Told tokens σ Q Q s r) : ∃ es τ,
    r.2.errors = s.errors ++ es ∧ Reports tokens σ s.rest es τ r.2.rest ∧ Q τ r.2.rest := by
  obtain ⟨_ | x, s'⟩ := r <;> exact h

theorem attempt (h : Told tokens σ Q Q s (p ctx s)) : Told tokens σ Q N s (attempt p ctx s) :=
  h.exists_of

theorem within {rule : Rule}
    (h : Told tokens σ Q N { s with path := s.path ++ [rule] }
      (p ctx { s with path := s.path ++ [rule] })) : Told tokens σ Q N s (within rule p ctx s) :=
  h

/-- After recovery nothing is left of the line. -/
theorem orSkipLine (hs : s.rest <:+ tokens)
    (h : Told tokens σ (Settled tokens) Anywhere s (p ctx s)) :
    Told tokens σ (Settled tokens) (Settled tokens) s (orSkipLine p ctx s) := by
  obtain ⟨es, τ, herrors, hreports, h⟩ := h
  rw [Parse.orSkipLine]
  rcases hps : p ctx s with ⟨_ | x, s'⟩ <;> rw [hps] at herrors hreports h
  · obtain ⟨υ, hskip, hfresh⟩ := Reports.skipLine tokens τ s'.rest
    have hall := hreports.trans hskip
    rw [List.append_nil] at hall
    exact ⟨es, υ, herrors, hall, hall.suffix.trans hs, hfresh⟩
  · exact ⟨es, τ, herrors, hreports, h⟩

end Told

/-! ## Within a line -/

/-- A parse that stays in a line. -/
def Words (p : Parse α) : Prop :=
  ∀ tokens σ ctx s, Begun tokens σ s.rest →
    Told tokens σ (fun τ rest => τ = σ ∧ Begun tokens σ rest) Anywhere s (p ctx s)

/-- A parse that reads up to the end of a line. -/
def Ends (p : Parse α) : Prop :=
  ∀ tokens ctx s, Begun tokens .nothing s.rest →
    Told tokens .nothing (Settled tokens) Anywhere s (p ctx s)

theorem Words.give (x : α) : Words (give x) := fun _ _ _ _ h =>
  .stay ⟨rfl, h⟩

theorem Words.refuse (he : e ≠ .count) : Words (refuse e : Parse α) := fun _ _ _ _ h =>
  .refuse h.ne_other he fun hend => .inl (h.within hend)

theorem Words.bind {p : Parse α} {f : α → Parse β} (hp : Words p) (hf : ∀ x, Words (f x)) :
    Words (andThen p f) := fun tokens σ ctx s h =>
  (hp tokens σ ctx s h).bind fun x _ s' ⟨hτ, h'⟩ => hτ ▸ hf x tokens σ ctx s' h'

theorem Words.map {p : Parse α} (h : Words p) (f : α → β) :
    Words (andThen p fun x => Parse.give (f x)) :=
  h.bind fun _ => .give _

theorem Words.within {p : Parse α} (h : Words p) (rule : Rule) : Words (within rule p) :=
  fun tokens σ ctx s hs => h tokens σ ctx { s with path := s.path ++ [rule] } hs

theorem Words.ends {p : Parse α} {f : α → Parse β} (hp : Words p) (hf : ∀ x, Ends (f x)) :
    Ends (andThen p f) := fun tokens ctx s h =>
  (hp tokens .nothing ctx s h).bind fun x _ s' ⟨hτ, h'⟩ => hτ ▸ hf x tokens ctx s' h'

theorem Ends.within {p : Parse α} (h : Ends p) (rule : Rule) : Ends (within rule p) :=
  fun tokens ctx s hs => h tokens ctx { s with path := s.path ++ [rule] } hs

theorem Ends.map {p : Parse α} (h : Ends p) (f : α → β) :
    Ends (andThen p fun x => Parse.give (f x)) :=
  fun tokens ctx s hs => (h tokens ctx s hs).map

section Tokens

variable {ctx : ParseContext} {s : Cursor} {Q : Blamed → List Token → Prop}

/-- The next token, if it is what must be there. -/
theorem told_expect {kind : TokenKind} (hkind : kind ≠ .lineEnd) (hσ : σ ≠ .other) (he : e ≠ .count)
    (hend : s.rest = [] → IsMissing tokens e)
    (hQ : ∀ t rest, s.rest = t :: rest → t.kind = kind → Q σ rest) :
    Told tokens σ Q Anywhere s (expect kind e ctx s) := by
  rw [expect, bind_eq, peek_andThen]
  split
  · next h =>
    obtain ⟨t, rest, hs, ht⟩ := List.exists_cons_of_head?_map h
    exact .word hs (ht ▸ hkind) (hQ t rest hs ht)
  · exact .refuse hσ he hend

theorem Begun.read (h : Begun tokens σ s.rest) {kind : TokenKind} (hkind : kind ≠ .lineEnd) :
    ∀ t rest, s.rest = t :: rest → t.kind = kind → σ = σ ∧ Begun tokens σ rest :=
  fun t rest hs ht => ⟨rfl, (hs ▸ h : Begun tokens σ (t :: rest)).word (ht ▸ hkind)⟩

theorem words_expect {kind : TokenKind} (hkind : kind ≠ .lineEnd) (he : e ≠ .count) :
    Words (expect kind e) := fun _ _ _ _ h =>
  told_expect hkind h.ne_other he (fun hend => .inl (h.within hend)) (h.read hkind)

/-- The end of a line, whatever was said of the line. -/
theorem told_lineEnd (h : Begun tokens σ s.rest) (he : e ≠ .count) :
    Told tokens σ (Settled tokens) Anywhere s (expect .lineEnd e ctx s) := by
  rw [expect, bind_eq, peek_andThen]
  split
  · next hk =>
    obtain ⟨t, rest, hs, ht⟩ := List.exists_cons_of_head?_map hk
    exact .lineEnd hs ht ⟨(hs ▸ List.suffix_cons t rest).trans h.suffix, .inr rfl⟩
  · exact .refuse h.ne_other he fun hend => .inl (h.within hend)

theorem ends_lineEnd (he : e ≠ .count) : Ends (expect .lineEnd e) := fun _ _ _ h =>
  told_lineEnd h he

/-- A token that is there becomes part of an answer. -/
theorem told_read {f : Token → α} {kind : TokenKind} (hk : s.rest.head?.map Token.kind = some kind)
    (hkind : kind ≠ .lineEnd) (hQ : ∀ t rest, s.rest = t :: rest → t.kind = kind → Q σ rest)
    {N : Blamed → List Token → Prop} :
    Told tokens σ Q N s (andThen next (fun t => give (f t)) ctx s) := by
  obtain ⟨t, rest, hs, ht⟩ := List.exists_cons_of_head?_map hk
  exact (Told.word hs (ht ▸ hkind) (hQ t rest hs ht)).map

/-- A value that may be left out. -/
theorem told_optionalValue (hnone : Q σ s.rest)
    (hsome : ∀ t rest, s.rest = t :: rest → t.kind.startsValue = true → Q σ rest)
    {N : Blamed → List Token → Prop} : Told tokens σ Q N s (optionalValue ctx s) := by
  rw [optionalValue, bind_eq, peek_andThen]
  cases hk : s.rest.head?.map Token.kind with
  | none => exact .stay hnone
  | some kind =>
    cases kind with
    | freeText | quotation | placeholder =>
      exact told_read hk TokenKind.noConfusion fun t rest hs ht => hsome t rest hs (ht ▸ rfl)
    | _ => exact .stay hnone

theorem ne_lineEnd_of_startsValue {kind : TokenKind} (h : kind.startsValue = true) :
    kind ≠ .lineEnd := by
  rintro rfl
  exact Bool.noConfusion h

theorem words_optionalValue : Words optionalValue := fun _ _ _ _ h =>
  told_optionalValue ⟨rfl, h⟩ fun t rest hs ht =>
    h.read (ne_lineEnd_of_startsValue ht) t rest hs rfl

theorem words_value (he : e ≠ .count) : Words (value e) := by
  refine .within (words_optionalValue.bind fun v => ?_) _
  cases v with
  | some v => exact .give v
  | none => exact .refuse he

theorem words_optionalLiteral : Words optionalLiteral := by
  intro tokens σ ctx s h
  rw [optionalLiteral, bind_eq, peek_andThen]
  cases hk : s.rest.head?.map Token.kind with
  | none => exact .stay ⟨rfl, h⟩
  | some kind =>
    cases kind with
    | quotation | placeholder =>
      exact told_read hk TokenKind.noConfusion (h.read TokenKind.noConfusion)
    | _ => exact .stay ⟨rfl, h⟩

theorem words_literal (he : e ≠ .count) : Words (literal e) := by
  refine .within (words_optionalLiteral.bind fun l => ?_) _
  cases l with
  | some l => exact .give l
  | none => exact .refuse he

end Tokens

/-! ## Directions -/

section Direction

variable {ctx : ParseContext} {s : Cursor}

/-- A number that is no count is reported, and read. -/
theorem told_number (h : Begun tokens .nothing s.rest) (hs : s.rest = t :: rest)
    (ht : t.kind ≠ .lineEnd) :
    Told tokens .nothing (Begun tokens) (Begun tokens) s (number ctx s) := by
  have hrest : Begun tokens .nothing rest := (hs ▸ h : Begun tokens .nothing (t :: rest)).word ht
  let s' : Cursor := ⟨rest, s.path ++ [.number], s.errors⟩
  refine .within (s := s) ?_
  rw [bind_eq, andThen_some (next_cons (s := { s with path := s.path ++ [.number] }) hs ctx)]
  cases hcount : t.count? with
  | some n => exact ⟨[], .nothing, (List.append_nil _).symm, hs ▸ .word ht (.stay _ _), hrest⟩
  | none =>
    change Told tokens .nothing (Begun tokens) (Begun tokens) s
      (andThen (reportAt (some t) .count) (fun _ => (fail : Parse Count)) ctx s')
    cases hhalt : isHalted ctx s' with
    | true =>
      rw [andThen, reportAt, hhalt]
      exact ⟨[], .nothing, (List.append_nil _).symm, hs ▸ .word ht (.stay _ _), hrest⟩
    | false =>
      rw [reportAt_fail_eq hhalt]
      exact ⟨_, .count, rfl, hs ▸ .count ht rfl rfl (.stay _ _),
        hrest.suffix, Blamed.noConfusion, hrest.within⟩

theorem told_optionalCount (h : Begun tokens .nothing s.rest) :
    Told tokens .nothing (Begun tokens) Anywhere s (optionalCount ctx s) := by
  rw [optionalCount, bind_eq, peek_andThen]
  cases hk : s.rest.head?.map Token.kind with
  | none => exact .stay h
  | some kind =>
    obtain ⟨t, rest, hs, rfl⟩ := List.exists_cons_of_head?_map hk
    dsimp only
    split
    · next hnumber =>
      refine .attempt (told_number h hs fun hend => ?_)
      rw [hend] at hnumber
      exact Bool.noConfusion hnumber
    · exact .stay h

/-- A direction goes on after a number that is no count. -/
theorem ends_direction : Ends direction := by
  refine Ends.within (fun tokens ctx s h => (told_optionalCount h).bind fun count τ s' h' => ?_) _
  rcases axis_cases ctx s' with ⟨a, ha, hk⟩ | ha
  · obtain ⟨k, rest, hs, hkeyword⟩ := List.exists_cons_of_head?_map hk
    have hk : k.kind ≠ .lineEnd := by
      rw [hkeyword]
      exact TokenKind.noConfusion
    have hkey : Told tokens τ (Begun tokens) Anywhere s' (next ctx s') :=
      .word hs hk ((hs ▸ h' : Begun tokens τ (k :: rest)).word hk)
    rw [bind_eq, andThen_some ha]
    exact hkey.bind fun _ _ _ h'' => (told_lineEnd h'' Expectation.noConfusion).map
  · have haxis : Told tokens τ (fun _ _ => False) Anywhere s' (axis ctx s') :=
      ha ▸ .refuse h'.ne_other Expectation.noConfusion fun hend => .inl (h'.within hend)
    exact haxis.bind fun _ _ _ h => h.elim

end Direction

/-! ## Items, names and devices -/

section Rules

variable {ctx : ParseContext} {s : Cursor}

/-- A token that is there, and then more of the line. -/
theorem Told.andWords {f : Token → Parse α} (hf : ∀ t, Words (f t)) {kind : TokenKind}
    (hkind : kind ≠ .lineEnd) (hk : s.rest.head?.map Token.kind = some kind)
    (h : Begun tokens σ s.rest) :
    Told tokens σ (fun τ rest => τ = σ ∧ Begun tokens σ rest) Anywhere s
      (andThen next f ctx s) := by
  obtain ⟨t, rest, hs, ht⟩ := List.exists_cons_of_head?_map hk
  have hnext : Told tokens σ (fun τ rest => τ = σ ∧ Begun tokens σ rest) Anywhere s (next ctx s) :=
    .word hs (ht ▸ hkind) (h.read hkind t rest hs ht)
  exact hnext.bind fun t τ s' ⟨hτ, h'⟩ => hτ ▸ hf t tokens σ ctx s' h'

theorem words_itemContent : Words itemContent := by
  intro tokens σ ctx s h
  rcases itemContent_cases ctx s with ⟨w, hk, hs⟩ | ⟨-, hs⟩ | hs
  · exact hs ▸ .andWords (fun _ => words_optionalValue.map _) TokenKind.noConfusion hk h
  · exact hs ▸ (words_literal Expectation.noConfusion).map _ tokens σ ctx s h
  · exact hs ▸ Words.refuse Expectation.noConfusion tokens σ ctx s h

theorem Words.repeatAt {kind : TokenKind} {body : Parse α}
    (hbody : ∀ tokens σ ctx s, s.rest.head?.map Token.kind = some kind → Begun tokens σ s.rest →
      Told tokens σ (fun τ rest => τ = σ ∧ Begun tokens σ rest) Anywhere s (body ctx s)) :
    Words (repeatAt kind body) := by
  intro tokens σ ctx s h
  induction s using repeatAt_induction kind body ctx with
  | stop s hk =>
    rw [repeatAt_stop hk]
    exact .stay ⟨rfl, h⟩
  | turn s hk ih =>
    obtain ⟨es, τ, herrors, hreports, hpost⟩ := hbody tokens σ ctx s hk h
    rw [Parse.repeatAt, if_pos hk]
    rcases hb : body ctx s with ⟨_ | x, s'⟩ <;> rw [hb] at herrors hreports hpost
    · exact ⟨es, τ, herrors, hreports, hpost⟩
    dsimp only
    -- a turn that reads nothing is the last one
    split
    · next hlt =>
      obtain ⟨rfl, h'⟩ := hpost
      obtain ⟨es', υ, herrors', hreports', hpost'⟩ := ih x s' hb hlt h'
      refine ⟨es ++ es', υ, ?_, hreports.trans hreports', ?_⟩
      · rw [herrors', herrors, List.append_assoc]
      · cases hxs : (Parse.repeatAt kind body ctx s').1 <;> rw [hxs] at hpost' <;> exact hpost'
    · exact ⟨es, τ, herrors, hreports, hpost⟩

theorem words_names : Words names := by
  refine words_optionalLiteral.bind fun first => ?_
  cases first with
  | none => exact .give _
  | some first =>
    exact (Words.repeatAt fun tokens σ ctx s hk h => .andWords
      (fun _ => (words_literal Expectation.noConfusion).map _) TokenKind.noConfusion hk h).map _

theorem words_optionalDevice : Words optionalDevice := by
  intro tokens σ ctx s h
  rw [optionalDevice, bind_eq, peek_andThen]
  cases hk : s.rest.head?.map Token.kind with
  | none => exact .stay ⟨rfl, h⟩
  | some kind =>
    cases kind with
    | keyword k =>
      dsimp only
      cases Device.ofKeyword? k with
      | none => exact .stay ⟨rfl, h⟩
      | some device => exact told_read hk TokenKind.noConfusion (h.read TokenKind.noConfusion)
    | _ => exact .stay ⟨rfl, h⟩

end Rules

/-! ## Lines -/

/-- A parse of what begins with a line that is there. -/
def Lines (p : Parse α) : Prop :=
  ∀ tokens ctx s t rest, s.rest = t :: rest → s.rest <:+ tokens →
    Told tokens .nothing (Settled tokens) (Settled tokens) s (p ctx s)

/-- A parse of what may begin with a line, or at the end of the input. -/
def Later (p : Parse α) : Prop :=
  ∀ tokens σ ctx s, Settled tokens σ s.rest →
    Told tokens σ (Settled tokens) (Settled tokens) s (p ctx s)

theorem Settled.eq_nothing (h : Settled tokens σ (t :: rest)) : σ = .nothing :=
  h.fresh.resolve_left (List.cons_ne_nil _ _)

theorem Later.give (x : α) : Later (give x) := fun _ _ _ _ h =>
  .stay h

theorem Later.fail : Later (fail : Parse α) := fun _ σ _ _ h =>
  ⟨[], σ, (List.append_nil _).symm, .stay _ _, h⟩

theorem Later.bind {p : Parse α} {f : α → Parse β} (hp : Later p) (hf : ∀ x, Later (f x)) :
    Later (andThen p f) := fun tokens σ ctx s h =>
  (hp tokens σ ctx s h).bind fun x τ s' h' => hf x tokens τ ctx s' h'

theorem Later.within {p : Parse α} (h : Later p) (rule : Rule) : Later (within rule p) :=
  fun tokens σ ctx s hs => h tokens σ ctx { s with path := s.path ++ [rule] } hs

theorem Later.lines {p : Parse α} (h : Later p) : Lines p := fun tokens _ s _ _ _ hsuffix =>
  h tokens .nothing _ s ⟨hsuffix, .inr rfl⟩

theorem Ends.lines {p : Parse α} (h : Ends p) : Lines (orSkipLine p) :=
  fun tokens ctx s _ _ hs hsuffix =>
    .orSkipLine hsuffix (h tokens ctx s (hs ▸ .of_cons (hs ▸ hsuffix)))

theorem Lines.bind {p : Parse α} {f : α → Parse β} (hp : Lines p) (hf : ∀ x, Later (f x)) :
    Lines (andThen p f) := fun tokens ctx s t rest hs hsuffix =>
  (hp tokens ctx s t rest hs hsuffix).bind fun x τ s' h' => hf x tokens τ ctx s' h'

theorem Lines.map {p : Parse α} (h : Lines p) (f : α → β) :
    Lines (andThen p fun x => Parse.give (f x)) :=
  h.bind fun _ => .give _

theorem Lines.within {p : Parse α} (h : Lines p) (rule : Rule) : Lines (within rule p) :=
  fun tokens ctx s t rest hs hsuffix =>
    h tokens ctx { s with path := s.path ++ [rule] } t rest hs hsuffix

theorem Lines.attempt {p : Parse α} (h : Lines p) : Lines (attempt p) :=
  fun tokens ctx s t rest hs hsuffix => (h tokens ctx s t rest hs hsuffix).attempt

theorem lines_refuseLine (he : e ≠ .count) : Lines (refuseLine e : Parse α) :=
  Ends.lines fun _ _ _ h => .refuse h.ne_other he fun hend => .inl (h.within hend)

theorem told_blankLine {ctx : ParseContext} {s : Cursor} (hs : s.rest = t :: rest)
    (ht : t.kind = .lineEnd) (hsuffix : s.rest <:+ tokens) {N : Blamed → List Token → Prop} :
    Told tokens .nothing (Settled tokens) N s (blankLine ctx s : Option (Line α) × Cursor) :=
  (Told.lineEnd hs ht ⟨(hs ▸ List.suffix_cons t rest).trans hsuffix, .inr rfl⟩).map

/-- The turns of a loop begin with lines. -/
theorem later_loop {stops : TokenKind → Bool} {body : TokenKind → Parse α}
    (hbody : ∀ tokens ctx s t rest, s.rest = t :: rest → s.rest <:+ tokens →
      Told tokens .nothing (Settled tokens) (Settled tokens) s (body t.kind ctx s)) :
    Later (loop stops body) := by
  intro tokens σ ctx s h
  induction s using loop_induction stops body ctx generalizing σ with
  | nil s hs =>
    rw [loop_end hs]
    exact .stay h
  | stop s t rest hs hstop =>
    rw [loop_stop hs hstop]
    exact .stay h
  | turn s t rest hs hhalt hstops ih =>
    obtain rfl : σ = .nothing := (hs ▸ h : Settled tokens σ (t :: rest)).eq_nothing
    obtain ⟨es, τ, herrors, hreports, h'⟩ := (hbody tokens ctx s t rest hs h.suffix).exists_of
    rw [loop_turn hs hhalt hstops]
    -- what a turn reports settles what the next one may be blamed for
    split
    · next hlt =>
      obtain ⟨es', υ, herrors', hreports', h''⟩ := (ih hlt τ h').exists_of
      refine ⟨es ++ es', υ, ?_, hreports.trans hreports', h''⟩
      rw [herrors', herrors, List.append_assoc]
    · exact ⟨es, τ, herrors, hreports, h'⟩

/-! ## Every rule -/

theorem lines_item : Lines item :=
  .within
    (Ends.lines (words_itemContent.ends fun _ => (ends_lineEnd Expectation.noConfusion).map _)) _

section List

variable {ctx : ParseContext} {s : Cursor}

theorem told_listKeyword (h : Begun tokens .nothing s.rest) :
    Told tokens .nothing (fun τ rest => τ = .nothing ∧ Begun tokens .nothing rest ∧
      ∃ before k, tokens = before ++ k :: rest ∧ k.kind = .keyword .list) Anywhere s
      (expect (.keyword .list) .listKeyword ctx s) := by
  refine told_expect TokenKind.noConfusion h.ne_other Expectation.noConfusion
    (fun hend => .inl (h.within hend)) fun t rest hs ht => ?_
  obtain ⟨before, htokens⟩ := h.suffix
  obtain ⟨hτ, hrest⟩ := h.read TokenKind.noConfusion t rest hs ht
  exact ⟨hτ, hrest, before, t, by rw [← htokens, hs], ht⟩

theorem told_listTitle {before : List Token} {k : Token} (h : Begun tokens .nothing s.rest)
    (htokens : tokens = before ++ k :: s.rest) (hk : k.kind = .keyword .list) :
    Told tokens .nothing (fun τ rest => τ = .nothing ∧ Begun tokens .nothing rest ∧
      FollowsList tokens rest) Anywhere s (optionalValue ctx s) := by
  have hlist : FollowsList tokens s.rest := by
    refine ⟨before, k, none, ?_, hk, fun t ht => absurd ht (Option.not_mem_none t)⟩
    rw [htokens, Option.toList_none, List.append_assoc]
    rfl
  refine told_optionalValue ⟨rfl, h, hlist⟩ fun t rest hs ht => ?_
  obtain ⟨hτ, hrest⟩ := h.read (ne_lineEnd_of_startsValue ht) t rest hs rfl
  refine ⟨hτ, hrest, before, k, some t, ?_, hk, fun t' ht' => Option.some.inj ht' ▸ ht⟩
  rw [htokens, hs, Option.toList_some, List.append_assoc]
  rfl

/-- What a list consists of may stand on a line of its own, which may be missing. -/
theorem told_listEnd (h : Begun tokens .nothing s.rest) (hlist : FollowsList tokens s.rest) :
    Told tokens .nothing (fun τ rest => τ = .nothing ∧ rest <:+ tokens ∧
      (rest = [] → IsMissing tokens .consistsOf)) Anywhere s (optionalToken .lineEnd ctx s) := by
  rw [optionalToken, bind_eq, peek_andThen]
  split
  · next hk =>
    obtain ⟨t, rest, hs, ht⟩ := List.exists_cons_of_head?_map hk
    refine (Told.lineEnd hs ht ⟨rfl, (hs ▸ List.suffix_cons t rest).trans h.suffix, ?_⟩).map
    rintro rfl
    exact .inr ⟨rfl, t, ht, hs ▸ hlist⟩
  · exact .stay ⟨rfl, h.suffix, fun hend => .inl (h.within hend)⟩

end List

theorem lines_list : Lines list := by
  refine .within (Ends.lines fun tokens ctx s h => ?_) _
  refine (told_listKeyword h).bind fun k τ s' hkeyword => ?_
  obtain ⟨rfl, h', before, k, htokens, hk⟩ := hkeyword
  refine (told_listTitle h' htokens hk).bind fun _ τ s₂ htitle => ?_
  obtain ⟨rfl, h₂, hlist⟩ := htitle
  refine (told_listEnd h₂ hlist).bind fun _ τ s₃ hend => ?_
  obtain ⟨rfl, hsuffix, hmissing⟩ := hend
  have hconsists : Told tokens .nothing (Begun tokens) Anywhere s₃
      (expect (.keyword .consistsOf) .consistsOf ctx s₃) :=
    told_expect TokenKind.noConfusion Blamed.noConfusion Expectation.noConfusion hmissing
      fun t rest hs ht => (Begun.of_cons (hs ▸ hsuffix)).word (ht ▸ TokenKind.noConfusion)
  refine hconsists.bind fun _ τ s₄ h₄ => (told_lineEnd h₄ Expectation.noConfusion).bind
    fun _ τ s₅ h₅ => ?_
  have hitems : Later (loop (!·.startsItem) fun _ => item) :=
    later_loop fun tokens ctx s t rest => lines_item tokens ctx s t rest
  exact (hitems tokens τ ctx s₅ h₅).map.mono (fun _ _ h => h) fun _ _ _ => trivial

theorem told_elementLine {ctx : ParseContext} {s : Cursor} (hs : s.rest = t :: rest)
    (hsuffix : s.rest <:+ tokens) :
    Told tokens .nothing (Settled tokens) (Settled tokens) s (elementLine t.kind ctx s) := by
  rw [elementLine]
  split
  · next ht => exact told_blankLine hs ht hsuffix
  · split
    · exact (lines_list.map Element.list).map Line.content tokens ctx s t rest hs hsuffix
    · split
      · exact (lines_item.map Element.item).map Line.content tokens ctx s t rest hs hsuffix
      · exact lines_refuseLine Expectation.noConfusion tokens ctx s t rest hs hsuffix

theorem later_optionalDirection : Later optionalDirection := by
  intro tokens σ ctx s h
  cases hs : s.rest with
  | nil =>
    rw [optionalDirection_of_not (by simp [hs])]
    exact .stay h
  | cons t rest =>
    by_cases hk : t.kind.startsDirection = true
    · rw [optionalDirection_of_starts hs hk, (hs ▸ h : Settled tokens σ (t :: rest)).eq_nothing]
      exact ends_direction.lines.attempt tokens ctx s t rest hs h.suffix
    · rw [optionalDirection_of_not (by simpa [hs] using hk)]
      exact .stay h

/-- An answer that is dropped where it is empty. -/
theorem Later.dropEmpty {p : Parse α} (h : Later p) (isEmpty : α → Bool) :
    Later (andThen p fun x => if isEmpty x then Parse.fail else Parse.give x) :=
  h.bind fun x => by
    split
    · exact .fail
    · exact .give x

theorem later_elementsOrNone : Later elementsOrNone := by
  have hlines : Later (loop TokenKind.endsElements elementLine) :=
    later_loop fun _ _ _ _ _ hs hsuffix => told_elementLine hs hsuffix
  exact (Later.within
    (later_optionalDirection.bind fun _ => hlines.bind fun _ => .give _) _).dropEmpty _

theorem lines_blockHeader : Lines blockHeader :=
  Ends.lines ((words_expect TokenKind.noConfusion Expectation.noConfusion).ends fun _ =>
    words_optionalValue.ends fun _ => (ends_lineEnd Expectation.noConfusion).map _)

theorem lines_block : Lines block := by
  refine .within (lines_blockHeader.attempt.bind fun header =>
    .bind (later_loop ?_) fun groups => ?_) _
  · intro tokens ctx s t rest hs hsuffix
    split
    · exact later_elementsOrNone.lines tokens ctx s t rest hs hsuffix
    · exact lines_refuseLine Expectation.noConfusion tokens ctx s t rest hs hsuffix
  · cases header with
    | none => exact .fail
    | some header => exact .give _

theorem lines_alignment : Lines alignment :=
  .within (Ends.lines ((words_expect TokenKind.noConfusion Expectation.noConfusion).ends fun _ =>
    words_names.ends fun _ => (words_expect TokenKind.noConfusion Expectation.noConfusion).ends
    fun _ => ends_direction.map _)) _

theorem later_optionalAlignment : Later optionalAlignment := by
  intro tokens σ ctx s h
  by_cases hk : s.rest.head?.map Token.kind = some (.keyword .blocks)
  · obtain ⟨t, rest, hs, -⟩ := List.exists_cons_of_head?_map hk
    rw [optionalAlignment_of_eq hk, (hs ▸ h : Settled tokens σ (t :: rest)).eq_nothing]
    exact lines_alignment.attempt tokens ctx s t rest hs h.suffix
  · rw [optionalAlignment_of_ne hk]
    exact .stay h

theorem told_blockLine {ctx : ParseContext} {s : Cursor} (hs : s.rest = t :: rest)
    (hsuffix : s.rest <:+ tokens) :
    Told tokens .nothing (Settled tokens) (Settled tokens) s (blockLine t.kind ctx s) := by
  rw [blockLine]
  split
  · exact lines_block.map Line.content tokens ctx s t rest hs hsuffix
  · split
    · next ht => exact told_blankLine hs ht hsuffix
    · exact lines_refuseLine Expectation.noConfusion tokens ctx s t rest hs hsuffix

theorem later_blocksOrNone : Later blocksOrNone := by
  have hlines : Later (loop TokenKind.endsBlocks blockLine) :=
    later_loop fun _ _ _ _ _ hs hsuffix => told_blockLine hs hsuffix
  exact (Later.within
    (later_optionalAlignment.bind fun _ => hlines.bind fun _ => .give _) _).dropEmpty _

theorem lines_pageHeader : Lines pageHeader :=
  Ends.lines (words_optionalDevice.ends fun _ =>
    (words_expect TokenKind.noConfusion Expectation.noConfusion).ends fun _ =>
    (words_value Expectation.noConfusion).ends fun _ =>
      (ends_lineEnd Expectation.noConfusion).map _)

theorem lines_page : Lines page := by
  refine .within (lines_pageHeader.attempt.bind fun header =>
    .bind (later_loop ?_) fun groups => ?_) _
  · intro tokens ctx s t rest hs hsuffix
    split
    · exact later_blocksOrNone.lines tokens ctx s t rest hs hsuffix
    · exact lines_refuseLine Expectation.noConfusion tokens ctx s t rest hs hsuffix
  · cases header with
    | none => exact .fail
    | some header => exact .give _

theorem told_sceneLine {ctx : ParseContext} {s : Cursor} (hs : s.rest = t :: rest)
    (hsuffix : s.rest <:+ tokens) :
    Told tokens .nothing (Settled tokens) (Settled tokens) s (sceneLine t.kind ctx s) := by
  rw [sceneLine]
  split
  · next ht => exact told_blankLine hs ht hsuffix
  · split
    · exact lines_page.map Line.content tokens ctx s t rest hs hsuffix
    · exact lines_refuseLine Expectation.noConfusion tokens ctx s t rest hs hsuffix

theorem later_scene : Later scene :=
  .within (.bind (later_loop fun _ _ _ _ _ hs hsuffix => told_sceneLine hs hsuffix)
    fun _ => .give _) _

end Parse

end Wireframe
