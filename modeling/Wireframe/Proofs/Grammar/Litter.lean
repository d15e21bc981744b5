import Wireframe.Proofs.Grammar.Replay

/-!
# Bad lines

A *bad line* begins with a token with which no line of a scene begins. The loop that comes to one
reports its first token, skips the line, and goes on as if the line were not there. A parse
*recovers* something among bad lines when it gives just that, reads its tokens and the bad lines
among them, and reports one error for each of these.

* `BadLine`: a line that nothing in a scene begins with.
* `LitteredRow`: a row and the bad lines after it. Nothing is lost if none of them stands before an
  item of a list (`LitteredRow.Clear`), where it would end the list.
* `Parse.Recovers`: what is parsed in spite of bad lines. `Parse.recovers_loop` goes through the
  members that are next, and the bad lines after each of them.
-/

namespace Wireframe

namespace TokenKind

/-- Whether no line of a scene begins with a kind. -/
def beginsNoLine : TokenKind → Bool
  | comma | colon | freeText => true
  | keyword .consistsOf | keyword .aligned | keyword .withIcon => true
  | keyword .top | keyword .bottom | keyword .left | keyword .right | keyword .center => true
  | _ => false

/-- No rule takes up a line that begins with such a kind, and no loop over lines stops at it. -/
theorem starts_of_beginsNoLine {kind : TokenKind} (h : kind.beginsNoLine = true) :
    kind.startsItem = false ∧ kind.startsElements = false ∧ kind.startsPage = false ∧
      kind.endsElements = false := by
  revert h
  cases kind with
  | keyword k => cases k <;> decide
  | numeral n => exact fun h => Bool.noConfusion h
  | _ => decide

variable {kind : TokenKind} (h : kind.beginsNoLine = true)

include h

theorem startsItem_of_beginsNoLine : kind.startsItem = false :=
  (starts_of_beginsNoLine h).1

theorem startsElements_of_beginsNoLine : kind.startsElements = false :=
  (starts_of_beginsNoLine h).2.1

theorem startsPage_of_beginsNoLine : kind.startsPage = false :=
  (starts_of_beginsNoLine h).2.2.1

theorem endsElements_of_beginsNoLine : kind.endsElements = false :=
  (starts_of_beginsNoLine h).2.2.2

theorem endsBlock_of_beginsNoLine : kind.endsBlock = false :=
  (Bool.or_eq_false_iff.1 (endsElements_of_beginsNoLine h)).1

theorem endsBlocks_of_beginsNoLine : kind.endsBlocks = false := by
  rw [endsBlocks, endsBlock_of_beginsNoLine h, Bool.false_and]

end TokenKind

/-- A line that nothing in a scene begins with. -/
structure BadLine where
  first : Token
  rest : List Token
  lineEnd : Token
  beginsNoLine : first.kind.beginsNoLine = true
  rest_ne_lineEnd : ∀ t ∈ rest, t.kind ≠ .lineEnd
  lineEnd_kind : lineEnd.kind = .lineEnd
  deriving DecidableEq

namespace BadLine

/-- The tokens of a bad line. -/
def tokens (l : BadLine) : List Token :=
  l.first :: (l.rest ++ [l.lineEnd])

/-- The token that is found where a line should begin, and its place. -/
def blame (l : BadLine) : Option Token × Range :=
  (some l.first, l.first.range)

end BadLine

/-- What an error finds, and where. -/
def ParseError.blame (e : ParseError) : Option Token × Range :=
  (e.found, e.range)

/-- A row and the bad lines after it. -/
structure LitteredRow where
  row : Row
  after : List BadLine

/-- Whether a row is the head of a list. -/
def Row.isList : Row → Bool
  | list .. => true
  | _ => false

/-- Whether an item after a row belongs to a list: one after the head of a list does, and one after
    an item that does. The flag says whether the row, if it is an item, belongs to a list. -/
def Row.inListAfter (inList : Bool) (r : Row) : Bool :=
  r.isList || inList && r.isItem

namespace LitteredRow

/-- The tokens of some rows and of the bad lines among them. -/
def tokens (rows : List LitteredRow) : List Token :=
  rows.flatMap fun r => r.row.leaves ++ r.after.flatMap BadLine.tokens

/-- The bad lines among some rows. -/
def litter (rows : List LitteredRow) : List BadLine :=
  rows.flatMap after

@[simp] theorem tokens_nil : tokens [] = [] := rfl

@[simp] theorem tokens_cons (r : LitteredRow) (rows : List LitteredRow) :
    tokens (r :: rows) = r.row.leaves ++ (r.after.flatMap BadLine.tokens ++ tokens rows) := by
  rw [tokens, List.flatMap_cons, List.append_assoc]
  rfl

@[simp] theorem tokens_append (rows rows' : List LitteredRow) :
    tokens (rows ++ rows') = tokens rows ++ tokens rows' :=
  List.flatMap_append

@[simp] theorem litter_nil : litter [] = [] := rfl

@[simp] theorem litter_cons (r : LitteredRow) (rows : List LitteredRow) :
    litter (r :: rows) = r.after ++ litter rows := rfl

@[simp] theorem litter_append (rows rows' : List LitteredRow) :
    litter (rows ++ rows') = litter rows ++ litter rows' :=
  List.flatMap_append

/-- The bad lines among rows do not change what these begin with. -/
theorem exists_tokens {rows : List LitteredRow} {t : Token} {w : List Token}
    (h : Row.tokens (rows.map row) = t :: w) : ∃ w', tokens rows = t :: w' := by
  cases rows with
  | nil => exact absurd h (List.cons_ne_nil t w).symm
  | cons r rows =>
    obtain ⟨t', w', hleaves⟩ := List.exists_cons_of_ne_nil r.row.leaves_ne_nil
    rw [List.map_cons, Row.tokens_cons, hleaves] at h
    rw [tokens_cons, hleaves, (List.cons.inj h).1]
    exact ⟨_, rfl⟩

/-- No bad line stands before an item of a list. The flag says whether an item at the beginning of
    the rows belongs to a list. -/
def Clear : Bool → List LitteredRow → Prop
  | _, [] => True
  | inList, r :: rows =>
    (r.row.inListAfter inList = true → (∃ next ∈ rows.head?, next.row.isItem = true) →
        r.after = []) ∧ Clear (r.row.inListAfter inList) rows

namespace Clear

variable {inList : Bool} {rows rows' : List LitteredRow}

theorem of_true (h : Clear true rows) : Clear false rows := by
  induction rows with
  | nil => trivial
  | cons r rows ih =>
    obtain ⟨hafter, hrows⟩ := h
    rw [Row.inListAfter] at hafter hrows
    rw [Clear, Row.inListAfter, Bool.false_and, Bool.or_false]
    refine ⟨fun hlist => hafter (by rw [hlist, Bool.true_or]), ?_⟩
    -- the two scans part at an item, and only there
    cases hr : r.row.isList with
    | true => rwa [hr] at hrows
    | false =>
      rw [hr, Bool.true_and, Bool.false_or] at hrows
      cases hitem : r.row.isItem with
      | true => exact ih (by rwa [hitem] at hrows)
      | false => rwa [hitem] at hrows

theorem of_append (h : Clear inList (rows ++ rows')) : Clear inList rows ∧ Clear false rows' := by
  induction rows generalizing inList with
  | nil =>
    cases inList with
    | true => exact ⟨trivial, h.of_true⟩
    | false => exact ⟨trivial, h⟩
  | cons r rows ih =>
    obtain ⟨hafter, hrows⟩ := h
    obtain ⟨hfirst, hsecond⟩ := ih hrows
    refine ⟨⟨fun hlist ⟨next, hnext, hitem⟩ => hafter hlist ⟨next, ?_, hitem⟩, hfirst⟩, hsecond⟩
    rw [show (rows.append rows').head? = rows.head?.or rows'.head? from List.head?_append,
      Option.mem_def.1 hnext]
    rfl

theorem tail {r : LitteredRow} (h : Clear inList (r :: rows)) : Clear false rows :=
  (of_append (show Clear inList ([r] ++ rows) from h)).2

/-- The bad lines among the rows of a list are all after the last one. -/
theorem tokens_eq {r : LitteredRow} (h : Clear inList (r :: rows))
    (hr : r.row.inListAfter inList = true) (hitems : ∀ q ∈ rows, q.row.isItem = true) :
    tokens (r :: rows) =
      Row.tokens ((r :: rows).map row) ++ (litter (r :: rows)).flatMap BadLine.tokens := by
  induction rows generalizing r inList with
  | nil => simp
  | cons q rows ih =>
    obtain ⟨hq, hitems⟩ := List.forall_mem_cons.1 hitems
    obtain ⟨hafter, hrows⟩ := h
    rw [hr] at hrows
    have hrest := ih hrows (by rw [Row.inListAfter, hq, Bool.true_and, Bool.or_true]) hitems
    rw [tokens_cons, litter_cons, hafter hr ⟨q, rfl, hq⟩, hrest]
    simp

end Clear

/-! ### Rows without bad lines -/

/-- A row with no bad line after it. -/
def clean (row : Row) : LitteredRow := ⟨row, []⟩

variable (rows : List Row)

theorem map_row_clean : (rows.map clean).map row = rows := by
  rw [List.map_map]
  exact List.map_id rows

theorem tokens_clean : tokens (rows.map clean) = Row.tokens rows := by
  simp [tokens, Row.tokens, clean, List.flatMap_map]

theorem litter_clean : litter (rows.map clean) = [] := by
  simp [litter, clean, List.flatMap_map]

theorem clear_clean (inList : Bool) : Clear inList (rows.map clean) := by
  induction rows generalizing inList with
  | nil => trivial
  | cons r rows ih => exact ⟨fun _ _ => rfl, ih _⟩

end LitteredRow

namespace Parse

variable {α β : Type} {x : α} {y : β} {p : Parse α} {f : α → Parse β} {w u : List Token}
  {bad bad' : List BadLine} {follow follow' : TokenKind → Bool}

/-- A parse gives `x` wherever the tokens `w` come next, and reads just these, with one error for
    each of the bad lines among them, as long as what follows begins with a kind that may follow. -/
def Recovers (p : Parse α) (x : α) (w : List Token) (bad : List BadLine)
    (follow : TokenKind → Bool) : Prop :=
  ∀ ctx s rest, s.errors.length + bad.length < ctx.limit → s.rest = w ++ rest → Begins follow rest →
    ∃ es : List ParseError, es.map ParseError.blame = bad.map BadLine.blame ∧
      p ctx s = (some x, { s with rest := rest, errors := s.errors ++ es })

theorem not_halted_of_lt {ctx : ParseContext} {s : Cursor} {n : Nat}
    (h : s.errors.length + n < ctx.limit) : isHalted ctx s = false :=
  decide_eq_false (Nat.not_le.2 (Nat.lt_of_le_of_lt (Nat.le_add_right _ _) h))

/-- What is replayed is recovered where there are no bad lines. -/
theorem Replays.recovers (h : Replays p x w follow) : Recovers p x w [] follow := by
  intro ctx s rest hlimit hs hrest
  refine ⟨[], rfl, ?_⟩
  rw [h ctx s rest (not_halted_of_lt hlimit) hs hrest, List.append_nil]

namespace Recovers

/-- Where there are no bad lines, what is recovered is replayed. -/
theorem replays (h : Recovers p x w [] follow) : Replays p x w follow := by
  intro ctx s rest hhalt hs hrest
  obtain ⟨es, hes, hp⟩ := h ctx s rest (Nat.not_le.1 (of_decide_eq_false hhalt)) hs hrest
  obtain rfl : es = [] := List.map_eq_nil_iff.1 hes
  rw [hp, List.append_nil]

/-- One parse after the other, where the second recovers something that may follow the first. -/
theorem bind (hp : Recovers p x w bad follow) (hf : Recovers (f x) y u bad' follow')
    (h : ∀ rest, Begins follow' rest → Begins follow (u ++ rest)) :
    Recovers (andThen p f) y (w ++ u) (bad ++ bad') follow' := by
  intro ctx s rest hlimit hs hrest
  rw [List.append_assoc] at hs
  rw [List.length_append] at hlimit
  obtain ⟨es, hes, hfirst⟩ := hp ctx s _ (by omega) hs (h rest hrest)
  have hlen : es.length = bad.length := by simpa using congrArg List.length hes
  obtain ⟨es', hes', hsecond⟩ := hf ctx { s with rest := u ++ rest, errors := s.errors ++ es } rest
    (by rw [List.length_append]; omega) rfl hrest
  refine ⟨es ++ es', by rw [List.map_append, List.map_append, hes, hes'], ?_⟩
  rw [andThen_some hfirst, hsecond, List.append_assoc]

/-- First something without bad lines that anything may follow. -/
theorem bind_replays (hp : Replays p x w TokenKind.any) (hf : Recovers (f x) y u bad' follow') :
    Recovers (andThen p f) y (w ++ u) bad' follow' :=
  hp.recovers.bind hf fun _ _ => Begins.any _

theorem bind_give (hp : Recovers p x w bad follow) (g : α → β) :
    Recovers (andThen p fun x => give (g x)) (g x) w bad follow := by
  intro ctx s rest hlimit hs hrest
  obtain ⟨es, hes, h⟩ := hp ctx s rest hlimit hs hrest
  exact ⟨es, hes, andThen_some h _⟩

theorem within (h : Recovers p x w bad follow) (rule : Rule) :
    Recovers (Parse.within rule p) x w bad follow := by
  intro ctx s rest hlimit hs hrest
  obtain ⟨es, hes, h⟩ := h ctx { s with path := s.path ++ [rule] } rest hlimit hs hrest
  refine ⟨es, hes, ?_⟩
  rw [Parse.within, h]
  simp only [List.dropLast_concat]

theorem attempt (h : Recovers p x w bad follow) :
    Recovers (Parse.attempt p) (some x) w bad follow := by
  intro ctx s rest hlimit hs hrest
  obtain ⟨es, hes, h⟩ := h ctx s rest hlimit hs hrest
  exact ⟨es, hes, by rw [Parse.attempt, h]⟩

/-- An answer that is kept because it is not empty. -/
theorem dropEmpty {isEmpty : α → Bool} (h : Recovers p x w bad follow) (hx : isEmpty x = false) :
    Recovers (andThen p fun x => if isEmpty x then fail else give x) x w bad follow := by
  intro ctx s rest hlimit hs hrest
  obtain ⟨es, hes, h⟩ := h ctx s rest hlimit hs hrest
  refine ⟨es, hes, ?_⟩
  rw [andThen_some h, if_neg (by rw [hx]; decide)]
  rfl

end Recovers

/-! ## Loops -/

/-- What is allowed to follow bad lines, or without any of them the tokens after them. -/
theorem Begins.litter (h : ∀ kind : TokenKind, kind.beginsNoLine = true → follow kind = true)
    {rest : List Token} (hrest : Begins follow rest) (bad : List BadLine) :
    Begins follow (bad.flatMap BadLine.tokens ++ rest) := by
  cases bad with
  | nil => exact hrest
  | cons l bad => exact .cons (h _ l.beginsNoLine)

/-- What may follow rows may follow them with bad lines among them. -/
theorem Begins.littered {rows : List LitteredRow} {rest : List Token}
    (h : Begins follow (Row.tokens (rows.map LitteredRow.row) ++ rest)) :
    Begins follow (LitteredRow.tokens rows ++ rest) := by
  cases hrows : Row.tokens (rows.map LitteredRow.row) with
  | nil =>
    obtain rfl : rows = [] := List.map_eq_nil_iff.1 (Row.tokens_eq_nil_iff.1 hrows)
    exact h
  | cons t w =>
    obtain ⟨w', htokens⟩ := LitteredRow.exists_tokens hrows
    rw [hrows] at h
    rw [htokens]
    exact .cons (h t rfl)

/-- A loop goes on at a bad line, and its body skips the line. -/
def Skips (stops : TokenKind → Bool) (body : TokenKind → Parse α) : Prop :=
  ∀ kind : TokenKind, kind.beginsNoLine = true →
    stops kind = false ∧ ∃ e, body kind = refuseLine e

/-- A line that is refused: its first token is blamed, and it is skipped. -/
theorem refuseLine_badLine {ctx : ParseContext} {s : Cursor} (hhalt : isHalted ctx s = false)
    (l : BadLine) {rest : List Token} (hs : s.rest = l.tokens ++ rest) (e : Expectation) :
    (refuseLine e : Parse α) ctx s = (none, { s with
      rest := rest, errors := s.errors ++ [⟨e, some l.first, l.first.range, s.path⟩] }) := by
  have hskip : ((l.tokens ++ rest).dropWhile (·.kind ≠ .lineEnd)).tail = rest := by
    have hinside : ∀ t ∈ l.first :: l.rest, decide (t.kind ≠ .lineEnd) = true := by
      refine List.forall_mem_cons.2 ⟨decide_eq_true fun h => ?_, fun t ht =>
        decide_eq_true (l.rest_ne_lineEnd t ht)⟩
      have := l.beginsNoLine
      rw [h] at this
      exact Bool.noConfusion this
    have hline : l.tokens ++ rest = (l.first :: l.rest) ++ l.lineEnd :: rest := by
      simp [BadLine.tokens]
    rw [hline, List.dropWhile_append_of_pos hinside,
      List.dropWhile_cons_of_neg (by rw [l.lineEnd_kind]; decide)]
    rfl
  rw [refuseLine, orSkipLine, refuse_eq hhalt]
  dsimp only [skipLine]
  rw [hs, hskip]
  rfl

/-- Bad lines at the beginning of a loop are skipped. -/
theorem Recovers.skip {stops : TokenKind → Bool} {body : TokenKind → Parse α} {xs : List α}
    (hskips : Skips stops body) (h : Recovers (loop stops body) xs w bad stops)
    (lines : List BadLine) :
    Recovers (loop stops body) xs (lines.flatMap BadLine.tokens ++ w) (lines ++ bad) stops := by
  induction lines with
  | nil => exact h
  | cons l lines ih =>
    intro ctx s rest hlimit hs hrest
    obtain ⟨hstops, e, hbody⟩ := hskips l.first.kind l.beginsNoLine
    rw [List.flatMap_cons, List.append_assoc, List.append_assoc, ← List.append_assoc _ w] at hs
    rw [List.cons_append, List.length_cons] at hlimit
    have hhalt := not_halted_of_lt hlimit
    have hturn := refuseLine_badLine (α := α) hhalt l hs e
    rw [← hbody] at hturn
    have hs' : s.rest = l.first :: (l.rest ++ [l.lineEnd] ++
        (lines.flatMap BadLine.tokens ++ w ++ rest)) := hs
    -- what comes after the first line is skipped from where its error is reported
    obtain ⟨es, hes, hrun⟩ := ih ctx { s with
      rest := lines.flatMap BadLine.tokens ++ w ++ rest
      errors := s.errors ++ [⟨e, some l.first, l.first.range, s.path⟩] } rest
      (by rw [List.length_append, List.length_singleton]; omega) rfl hrest
    refine ⟨⟨e, some l.first, l.first.range, s.path⟩ :: es, ?_, ?_⟩
    · rw [List.map_cons, List.cons_append, List.map_cons, hes]
      rfl
    · have hlt : (body l.first.kind ctx s).2.rest.length < s.rest.length := by
        rw [hturn, hs']
        simp only [List.length_cons, List.length_append]
        omega
      rw [loop_step hs' hhalt hstops hlt, andThen, Parse.attempt, hturn]
      dsimp only
      rw [andThen_some hrun]
      exact congrArg (fun errors => (some xs, Cursor.mk rest s.path errors)) (List.append_assoc ..)

/-- A turn of a loop, and the turns after it. -/
theorem Recovers.turn {stops : TokenKind → Bool} {body : TokenKind → Parse α} {xs : List α}
    {t : Token}
    (hstops : stops t.kind = false) (hx : Recovers (body t.kind) x (t :: w) bad follow)
    (hxs : Recovers (loop stops body) xs u bad' stops)
    (h : ∀ rest, Begins stops rest → Begins follow (u ++ rest)) :
    Recovers (loop stops body) (x :: xs) (t :: w ++ u) (bad ++ bad') stops := by
  have hturns : Recovers (andThen (Parse.attempt (body t.kind))
      fun x => andThen (loop stops body) fun xs => give (x.toList ++ xs)) (x :: xs) (t :: w ++ u)
      (bad ++ bad') stops :=
    hx.attempt.bind (hxs.bind_give fun xs => (some x).toList ++ xs) h
  intro ctx s rest hlimit hs hrest
  -- the member has a token, so that the loop goes on
  have hlt : (body t.kind ctx s).2.rest.length < s.rest.length := by
    rw [List.length_append] at hlimit
    rw [List.append_assoc] at hs
    obtain ⟨es, -, hfirst⟩ := hx ctx s (u ++ rest) (by omega) hs (h rest hrest)
    rw [hfirst, hs]
    simp only [List.cons_append, List.length_cons, List.length_append]
    omega
  rw [loop_step hs (not_halted_of_lt hlimit) hstops hlt]
  exact hturns ctx s rest hlimit hs hrest

/-- The rows of a member are those of one turn of a loop: its body recovers the member, and leaves
    bad lines at the end of it to the loop. `rows` are the rows after the member. -/
def TakesTurn (stops : TokenKind → Bool) (body : TokenKind → Parse α) (x : α)
    (r rows : List LitteredRow) : Prop :=
  ∃ t w bad after follow, LitteredRow.tokens r = t :: w ++ after.flatMap BadLine.tokens ∧
    LitteredRow.litter r = bad ++ after ∧ stops t.kind = false ∧
    Recovers (body t.kind) x (t :: w) bad follow ∧ ∀ rest, Begins stops rest →
      Begins follow (after.flatMap BadLine.tokens ++ LitteredRow.tokens rows ++ rest)

/-- A member that leaves no bad lines to the loop. -/
theorem Recovers.takesTurn {stops : TokenKind → Bool} {body : TokenKind → Parse α}
    {r rows : List LitteredRow} {t : Token} (h : Recovers p x (LitteredRow.tokens r)
      (LitteredRow.litter r) follow)
    (htokens : LitteredRow.tokens r = t :: w) (hstops : stops t.kind = false)
    (hbody : body t.kind = p)
    (hfollow : ∀ rest, Begins stops rest →
      Begins follow (Row.tokens (rows.map LitteredRow.row) ++ rest)) :
    TakesTurn stops body x r rows := by
  rw [htokens] at h
  refine ⟨t, w, LitteredRow.litter r, [], follow, ?_, (List.append_nil _).symm, hstops,
    by rwa [hbody], fun rest hrest => .littered (hfollow rest hrest)⟩
  rw [htokens]
  exact (List.append_nil _).symm

/-- A loop goes through the members that are next, and the bad lines after each of them,
    if each takes a turn. -/
theorem recovers_loop {P F : α → List Row → Prop} {stops : TokenKind → Bool}
    {body : TokenKind → Parse α} (hskips : Skips stops body) {xs : List α} {rows : List LitteredRow}
    (h : RowsOf P F xs (rows.map LitteredRow.row))
    (hwell : ∀ row ∈ rows.map LitteredRow.row, row.IsWellFormed)
    (hclear : LitteredRow.Clear false rows)
    (hbody : ∀ x r rows, P x (r.map LitteredRow.row) → F x (rows.map LitteredRow.row) →
      (∀ row ∈ r.map LitteredRow.row, row.IsWellFormed) → LitteredRow.Clear false r →
      (∀ row ∈ rows.map LitteredRow.row, row.IsWellFormed) → TakesTurn stops body x r rows) :
    Recovers (loop stops body) xs (LitteredRow.tokens rows) (LitteredRow.litter rows) stops := by
  generalize hall : rows.map LitteredRow.row = all at h
  induction h generalizing rows with
  | nil =>
    obtain rfl : rows = [] := List.map_eq_nil_iff.1 hall
    exact replays_loop_nil.recovers
  | @cons x r xs _ hP hF _ ih =>
    obtain ⟨r, rows, rfl, rfl, rfl⟩ := List.map_eq_append_iff.1 hall
    rw [List.map_append] at hwell
    obtain ⟨hr, hrows⟩ := List.forall_mem_append.1 hwell
    obtain ⟨hclear, hclears⟩ := hclear.of_append
    obtain ⟨t, w, bad, after, follow, htokens, hlitter, hstops, hx, hfollow⟩ :=
      hbody x r rows hP hF hr hclear hrows
    rw [LitteredRow.tokens_append, htokens, LitteredRow.litter_append, hlitter, List.append_assoc,
      List.append_assoc]
    -- a turn for the member, one for each bad line after it, and the turns for the other members
    exact hx.turn hstops ((ih hrows hclears rfl).skip hskips after) hfollow

end Parse

end Wireframe
