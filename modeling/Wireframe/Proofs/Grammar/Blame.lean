import Wireframe.Proofs.Grammar.Track

/-!
# Every rule puts the blame where it belongs

Each rule of the grammar is tracked from the stages at which it is called. What the loops rely on is
which tokens end them: after a block only a token that ends a block can come, and after the groups
of a page only one that ends these or begins a page (`Stage.InPage`). So a token that a loop refuses
is never one that some rule further out would have taken.
-/

namespace Wireframe

namespace Stage

variable {σ τ : Stage} {kind : TokenKind} {place : Place} {rest : List Token}

/-! ## What stages refuse -/

theorem refuses_head? (hline : ∀ place, σ ≠ line place)
    (h : ∀ t ∈ rest.head?, σ.after? t.kind = none) : σ.Refuses rest.head? := by
  cases rest with
  | nil => exact hline
  | cons t rest =>
    change σ.step? t = none
    rw [step?, h t rfl, ite_self]

/-- An expectation of one kind. -/
theorem expects_of_kinds {e : Expectation} (he : e.kinds = [kind])
    (hstep : σ.after? kind = some τ) : σ.Expects e := by
  intro kind' hkind
  rw [he, List.mem_singleton] at hkind
  rw [hkind, hstep]
  rfl

theorem startsDirection_eq (kind : TokenKind) :
    kind.startsDirection = (kind.isAxis || kind.startsNumber) := by
  cases kind with
  | keyword k => cases k <;> rfl
  | _ => rfl

theorem direction?_eq_none (h : kind.startsDirection = false) : direction? place kind = none := by
  rw [startsDirection_eq, Bool.or_eq_false_iff] at h
  rw [direction?, h.1, h.2]
  rfl

theorem direction?_of_isAxis (h : kind.isAxis = true) :
    direction? place kind = some (ended place) := by
  rw [direction?, if_pos h]

theorem direction?_of_startsNumber (h : kind.startsNumber = true) :
    direction? place kind = some (counted place) := by
  have hne : kind.isAxis = false := by
    cases kind with
    | keyword k => exact Bool.noConfusion h
    | _ => rfl
  rw [direction?, hne, h]
  rfl

theorem after?_line_lineEnd (place : Place) : (line place).after? .lineEnd = some (line place) := by
  cases place <;> rfl

theorem after?_line_page (place : Place) :
    (line place).after? (.keyword .page) = some pageKeyword := by
  cases place <;> rfl

theorem after?_line_device (place : Place) (d : Device) :
    (line place).after? (.keyword d.keyword) = some device := by
  cases place <;> cases d <;> rfl

theorem after?_line_block (hplace : place ≠ .outside) :
    (line place).after? (.keyword .block) = some keyword := by
  cases place with
  | outside => exact absurd rfl hplace
  | _ => rfl

theorem after?_line_blocks (hplace : place ≠ .outside) :
    (line place).after? (.keyword .blocks) = some blocksKeyword := by
  cases place with
  | outside => exact absurd rfl hplace
  | _ => rfl

theorem after?_line_direction (h : kind.startsDirection = true) :
    (line .block).after? kind = direction? .block kind := by
  cases kind with
  | keyword k => cases k <;> first | rfl | exact Bool.noConfusion h
  | number | numeral => rfl
  | _ => exact Bool.noConfusion h

theorem after?_line_literal (h : kind.startsLiteral = true) :
    (line .block).after? kind = some (ended .block) := by
  cases kind with
  | quotation | placeholder => rfl
  | _ => exact Bool.noConfusion h

theorem after?_line_widget (w : Widget) :
    (line .block).after? (.keyword w.keyword) = some keyword := by
  cases w <;> rfl

/-- Outside of pages only a page can begin. -/
theorem after?_outside (hend : kind ≠ .lineEnd) (hpage : kind.startsPage = false) :
    (line .outside).after? kind = none := by
  cases kind with
  | keyword k => cases k <;> first | rfl | exact Bool.noConfusion hpage
  | lineEnd => exact absurd rfl hend
  | _ => rfl

/-- Before the first block of a page, or after an alignment, only a block or something further out
    can begin. -/
theorem after?_page (hend : kind ≠ .lineEnd) (hblock : kind.endsBlock = false) :
    (line .page).after? kind = none := by
  cases kind with
  | keyword k => cases k <;> first | rfl | exact Bool.noConfusion hblock
  | lineEnd => exact absurd rfl hend
  | _ => rfl

/-- In a block only an element or something further out can begin. -/
theorem after?_block (helement : kind.startsElements = false) (hblock : kind.endsBlock = false) :
    (line .block).after? kind = none := by
  cases kind with
  | keyword k =>
    cases k <;> first | rfl | exact Bool.noConfusion helement | exact Bool.noConfusion hblock
  | comment | freeText | blanks | comma | colon => rfl
  | _ => exact Bool.noConfusion helement

end Stage

namespace Parse

open Stage

variable {α β : Type} {σ τ : Stage} {s : Cursor} {ctx : ParseContext}

/-- A parse that comes to one stage. -/
def At (τ : Stage) : α → Stage → List Token → Prop :=
  fun _ υ _ => υ = τ

/-- A parse of what may be left out: it comes to `τ`, or it stays where it is and something else is
    next. -/
def Perhaps (σ τ : Stage) (starts : TokenKind → Bool) (before : List Token) :
    Option α → Stage → List Token → Prop
  | some _, υ, _ => υ = τ
  | none, υ, rest => υ = σ ∧ rest = before ∧ Begins (!starts ·) rest

/-! ## Tokens -/

theorem tracked_expect {kind : TokenKind} {e : Expectation} (hhalt : isHalted ctx s = false)
    (hkind : kind ≠ .number) (hstep : σ.after? kind = some τ)
    (hrefuses : Begins (· ≠ kind) s.rest → σ.Refuses s.rest.head?) (hexpects : σ.Expects e) :
    Tracked σ (At τ) s (expect kind e ctx s) := by
  rw [expect, bind_eq, peek_andThen]
  by_cases hk : s.rest.head?.map Token.kind = some kind
  · obtain ⟨t, rest, hs, ht⟩ := List.exists_cons_of_head?_map hk
    rw [if_pos hk]
    refine .next hs ?_ rfl
    rw [step?_of_kind (ht ▸ hkind), ht, hstep]
  · rw [if_neg hk]
    refine .refuse hhalt (hrefuses fun t ht => decide_eq_true fun h => hk ?_) hexpects
    rw [Option.mem_def.1 ht, ← h]
    rfl

theorem tracked_lineEnd {place : Place} {e : Expectation} (hhalt : isHalted ctx s = false)
    (he : e.kinds = [.lineEnd]) :
    Tracked (ended place) (At (line place)) s (expect .lineEnd e ctx s) := by
  refine tracked_expect hhalt nofun rfl (fun h => refuses_head? nofun fun t ht => ?_)
    (expects_of_kinds he rfl)
  exact if_neg (of_decide_eq_true (h t ht))

/-- What may be left out is there. -/
theorem tracked_read {starts : TokenKind → Bool} {f : Token → α} {t : Token} {rest : List Token}
    (hs : s.rest = t :: rest) (hkind : t.kind ≠ .number) (hstep : σ.after? t.kind = some τ) :
    Tracked σ (Perhaps σ τ starts s.rest) s (andThen next (fun t => give (some (f t))) ctx s) :=
  (Tracked.next hs ((step?_of_kind hkind).trans hstep) rfl).map

/-- What may be left out is not there. -/
theorem tracked_leave {starts : TokenKind → Bool} (h : ∀ t ∈ s.rest.head?, starts t.kind = false) :
    Tracked σ (Perhaps σ τ starts s.rest) s (give (none : Option α) ctx s) :=
  .give ⟨rfl, rfl, fun t ht => by simpa using h t ht⟩

theorem tracked_optionalToken {kind : TokenKind} (hkind : kind ≠ .number)
    (hstep : σ.after? kind = some τ) :
    Tracked σ (Perhaps σ τ (· = kind) s.rest) s (optionalToken kind ctx s) := by
  rw [optionalToken, bind_eq, peek_andThen]
  by_cases hk : s.rest.head?.map Token.kind = some kind
  · obtain ⟨t, rest, hs, rfl⟩ := List.exists_cons_of_head?_map hk
    rw [if_pos hk]
    exact tracked_read hs hkind hstep
  · rw [if_neg hk]
    refine tracked_leave fun t ht => decide_eq_false fun h => hk ?_
    rw [Option.mem_def.1 ht, ← h]
    rfl

theorem tracked_optionalValue (hstep : ∀ kind, kind.startsValue = true → σ.after? kind = some τ) :
    Tracked σ (Perhaps σ τ TokenKind.startsValue s.rest) s (optionalValue ctx s) := by
  rw [optionalValue, bind_eq, peek_andThen]
  rcases hs : s.rest.head? with _ | t
  · exact tracked_leave (by simp [hs])
  obtain ⟨rest, hrest⟩ := List.head?_eq_some_iff.1 hs
  rw [Option.map_some]
  cases hk : t.kind with
  | freeText | quotation | placeholder => exact tracked_read hrest (by simp [hk]) (hk ▸ hstep _ rfl)
  | _ => exact tracked_leave (by simp [hs, hk, TokenKind.startsValue, TokenKind.startsLiteral])

theorem tracked_value {e : Expectation} (hhalt : isHalted ctx s = false)
    (hstep : ∀ kind, kind.startsValue = true → σ.after? kind = some τ)
    (hrefuses : Begins (!·.startsValue) s.rest → σ.Refuses s.rest.head?) (hexpects : σ.Expects e) :
    Tracked σ (At τ) s (value e ctx s) := by
  refine .within (Tracked.bind_of_built (fun o => by cases o <;> infer_instance)
    (tracked_optionalValue hstep) fun o υ s' hhalt' ho => ?_)
  cases o with
  | some v => exact .give ho
  | none =>
    obtain ⟨rfl, hrest, hbegins⟩ := ho
    rw [hrest] at hbegins
    exact .refuse (hhalt'.trans hhalt) (hrest ▸ hrefuses hbegins) hexpects

theorem tracked_optionalLiteral
    (hstep : ∀ kind, kind.startsLiteral = true → σ.after? kind = some τ) :
    Tracked σ (Perhaps σ τ TokenKind.startsLiteral s.rest) s (optionalLiteral ctx s) := by
  rw [optionalLiteral, bind_eq, peek_andThen]
  rcases hs : s.rest.head? with _ | t
  · exact tracked_leave (by simp [hs])
  obtain ⟨rest, hrest⟩ := List.head?_eq_some_iff.1 hs
  rw [Option.map_some]
  cases hk : t.kind with
  | quotation | placeholder => exact tracked_read hrest (by simp [hk]) (hk ▸ hstep _ rfl)
  | _ => exact tracked_leave (by simp [hs, hk, TokenKind.startsLiteral])

theorem tracked_literal {e : Expectation} (hhalt : isHalted ctx s = false)
    (hstep : ∀ kind, kind.startsLiteral = true → σ.after? kind = some τ)
    (hrefuses : Begins (!·.startsLiteral) s.rest → σ.Refuses s.rest.head?)
    (hexpects : Begins (!·.startsLiteral) s.rest → σ.Expects e) :
    Tracked σ (At τ) s (literal e ctx s) := by
  refine .within (Tracked.bind_of_built (fun o => by cases o <;> infer_instance)
    (tracked_optionalLiteral hstep) fun o υ s' hhalt' ho => ?_)
  cases o with
  | some l => exact .give ho
  | none =>
    obtain ⟨rfl, hrest, hbegins⟩ := ho
    rw [hrest] at hbegins
    exact .refuse (hhalt'.trans hhalt) (hrest ▸ hrefuses hbegins) (hexpects hbegins)

/-! ## Directions -/

theorem isSome_count?_of_numeral {t : Token} (hk : t.kind.startsNumber = true)
    (hne : t.kind ≠ .number) : t.count?.isSome = true := by
  rw [Token.count?]
  cases hkind : t.kind with
  | numeral n => rfl
  | number => exact absurd hkind hne
  | _ => rw [hkind] at hk; exact Bool.noConfusion hk

/-- A number that is no count is blamed, though it is read. -/
theorem tracked_number {t : Token} {rest : List Token} (hs : s.rest = t :: rest)
    (hhalt : isHalted ctx s = false) (hk : t.kind.startsNumber = true)
    (hstep : ∀ kind, kind.startsNumber = true → σ.after? kind = some τ) :
    Tracked σ (At τ) s (number ctx s) := by
  let s' : Cursor := { s with path := s.path ++ [.number] }
  refine .within (s := s) ?_
  rw [bind_eq, andThen_some (next_cons (show s'.rest = t :: rest from hs) ctx)]
  cases hcount : t.count? with
  | some n =>
    refine .inl ⟨⟨t, n⟩, [t], τ, rfl, rfl, hs, ?_, rfl⟩
    rw [run?_eq_some_cons (τ := τ), run?_nil]
    rw [step?, Token.isUsable, hcount, Option.isSome_some, Bool.or_true, if_pos rfl, hstep _ hk]
  | none =>
    -- a numeral is always a count, so the token is a number in digits, and those are not usable
    have hnumber : t.kind = .number := Decidable.byContradiction fun hne => by
      simpa [hcount] using isSome_count?_of_numeral hk hne
    have hrefuses : σ.Refuses (some t) := by
      change σ.step? t = none
      rw [step?, Token.isUsable, hnumber, hcount]
      rfl
    exact .reportAt_fail rfl hhalt (congrArg List.head? hs).symm hrefuses
      (expects_of_kinds rfl (hstep _ rfl))

theorem tracked_optionalCount (hhalt : isHalted ctx s = false)
    (hstep : ∀ kind, kind.startsNumber = true → σ.after? kind = some τ) :
    Tracked σ (Perhaps σ τ TokenKind.startsNumber s.rest) s (optionalCount ctx s) := by
  rw [optionalCount, bind_eq, peek_andThen]
  rcases hs : s.rest.head? with _ | t
  · exact tracked_leave (by simp [hs])
  obtain ⟨rest, hrest⟩ := List.head?_eq_some_iff.1 hs
  rw [Option.map_some]
  dsimp only
  split
  · next hk => exact .attempt (tracked_number hrest hhalt hk hstep)
  · next hk => exact tracked_leave (by simpa [hs] using hk)

/-- The keyword for an axis is not read yet. -/
theorem tracked_axis {place : Place} (hhalt : isHalted ctx s = false)
    (hstep : ∀ kind, kind.isAxis = true → σ.after? kind = some (ended place))
    (hrefuses : Begins (!·.isAxis) s.rest → σ.Refuses s.rest.head?) :
    Tracked σ (fun _ υ rest => υ = σ ∧ ∃ t more, rest = t :: more ∧ t.kind.isAxis = true) s
      (axis ctx s) := by
  have hexpects : σ.Expects .axis := fun kind hkind => by
    rw [hstep kind (by simpa [Expectation.kinds, TokenKind.isAxis] using hkind)]
    rfl
  rw [axis, bind_eq, peek_andThen]
  rcases hs : s.rest with _ | ⟨t, rest⟩
  · exact .refuse hhalt (hrefuses (hs ▸ .nil)) hexpects
  rw [List.head?_cons, Option.map_some]
  cases hk : t.kind with
  | keyword k =>
    cases k with
    | rows | columns => exact .give ⟨rfl, t, rest, hs, by rw [hk]; rfl⟩
    | _ => exact .refuse hhalt (hrefuses (hs ▸ .cons (by rw [hk]; rfl))) hexpects
  | _ => exact .refuse hhalt (hrefuses (hs ▸ .cons (by rw [hk]; rfl))) hexpects

/-- A direction, wherever it can begin or is missing. -/
theorem tracked_direction {place : Place} (hhalt : isHalted ctx s = false)
    (hstep : ∀ kind, kind.startsDirection = true → σ.after? kind = direction? place kind)
    (hrefuses : Begins (!·.startsDirection) s.rest → σ.Refuses s.rest.head?) :
    Tracked σ (At (line place)) s (direction ctx s) := by
  have hnumber (kind) (hk : kind.startsNumber = true) : σ.after? kind = some (counted place) := by
    rw [hstep kind (by rw [startsDirection_eq, hk, Bool.or_true]), direction?_of_startsNumber hk]
  -- the rest of the line is the same with and without a count, but begins at another stage
  have hline {υ : Stage} {s' : Cursor} (hhalt' : isHalted ctx s' = false)
      (hstep' : ∀ kind, kind.isAxis = true → υ.after? kind = some (ended place))
      (hrefuses' : Begins (!·.isAxis) s'.rest → υ.Refuses s'.rest.head?) (count : Option Count) :
      Tracked υ (At (line place)) s' (andThen axis (fun a => andThen next fun k =>
        andThen (expect .lineEnd .directionEnd) fun e => give (Direction.mk count k a e))
        ctx s') := by
    refine (tracked_axis hhalt' hstep' hrefuses').bind
      fun a τ s'' hhalt'' ⟨hτ, t, more, hs, hk⟩ => ?_
    subst hτ
    have hkind : t.kind ≠ .number := fun h => by rw [h] at hk; exact Bool.noConfusion hk
    have hkeyword : Tracked τ (At (ended place)) s'' (next ctx s'') :=
      .next hs ((step?_of_kind hkind).trans (hstep' _ hk)) rfl
    refine hkeyword.bind fun k τ' s₃ hhalt₃ hτ' => ?_
    rw [show τ' = ended place from hτ']
    exact .map (tracked_lineEnd ((hhalt₃.trans hhalt'').trans hhalt') rfl)
  refine .within (Tracked.bind (tracked_optionalCount hhalt hnumber)
    fun count υ s' hhalt' hcount => ?_)
  cases count with
  | some c =>
    obtain rfl : υ = counted place := hcount
    refine hline (υ := counted place) (hhalt'.trans hhalt) (fun kind hk => ?_) (fun h => ?_) _
    · rw [after?, if_pos hk]
    · refine refuses_head? (fun _ => nofun) fun t ht => ?_
      rw [after?, if_neg (by simpa using h t ht)]
  | none =>
    obtain ⟨rfl, hrest, hbegins⟩ := hcount
    refine hline (hhalt'.trans hhalt) (fun kind hk => ?_) (fun h => ?_) _
    · rw [hstep kind (by rw [startsDirection_eq, hk, Bool.true_or]), direction?_of_isAxis hk]
    -- without a count nothing was read: what is no axis is no direction either
    · have hnone : Begins (!·.startsDirection) s'.rest := fun t ht => by
        simpa [startsDirection_eq] using And.intro (h t ht) (hbegins t ht)
      rw [hrest] at hnone ⊢
      exact hrefuses hnone

/-! ## Items and lists -/

/-- After a title that may be left out, the line end is missing. -/
def Titled (υ : Stage) (rest : List Token) : Prop :=
  υ = ended .block ∨ υ = keyword ∧ Begins (!·.startsValue) rest

theorem Titled.of_perhaps {title : Option Value} {υ : Stage} {before rest : List Token}
    (h : Perhaps keyword (ended .block) TokenKind.startsValue before title υ rest) :
    Titled υ rest := by
  cases title with
  | some v => exact .inl h
  | none => exact .inr ⟨h.1, h.2.2⟩

theorem Titled.tracked_lineEnd {e : Expectation} (h : Titled σ s.rest)
    (hhalt : isHalted ctx s = false)
    (he : e.kinds = [.lineEnd]) : Tracked σ (At (line .block)) s (expect .lineEnd e ctx s) := by
  rcases h with rfl | ⟨rfl, hvalue⟩
  · exact Parse.tracked_lineEnd hhalt he
  · refine tracked_expect hhalt nofun rfl (fun h => refuses_head? (fun _ => nofun) fun t ht => ?_)
      (expects_of_kinds he rfl)
    rw [after?, if_neg (by simpa using hvalue t ht), if_neg (of_decide_eq_true (h t ht))]

/-- A title after a keyword, up to the line end. -/
theorem tracked_title :
    Tracked keyword (fun _ => Titled) s (optionalValue ctx s) := by
  refine (tracked_optionalValue fun kind hk => by rw [after?, if_pos hk]).mono fun _ _ _ h => ?_
  exact .of_perhaps h

theorem tracked_itemContent {t : Token} {rest : List Token} (hs : s.rest = t :: rest)
    (hhalt : isHalted ctx s = false) (hk : t.kind.startsItem = true) :
    Tracked (line .block) (fun _ => Titled) s (itemContent ctx s) := by
  rw [itemContent, bind_eq, peek_andThen, hs, List.head?_cons, Option.map_some]
  cases hkind : t.kind with
  | keyword k =>
    dsimp only
    cases hw : Widget.ofKeyword? k with
    | none => rw [hkind] at hk; simp [TokenKind.startsItem, hw] at hk
    | some w =>
      have hkeyword : Tracked (line .block) (At keyword) s (next ctx s) := by
        refine .next hs ?_ rfl
        rw [step?_of_kind (by simp [hkind]), hkind, Widget.eq_keyword hw, after?_line_widget]
      refine hkeyword.bind fun k υ s' _ hυ => ?_
      obtain rfl : υ = keyword := hυ
      exact tracked_title.map
  | quotation | placeholder =>
    have hliteral : Tracked (line .block) (At (ended .block)) s (literal .item ctx s) := by
      -- the token starts a literal, so it is not refused
      have hnot : ¬Begins (!·.startsLiteral) s.rest := fun h => by
        have := h t (hs ▸ rfl)
        simp [hkind, TokenKind.startsLiteral] at this
      exact tracked_literal hhalt (fun _ => after?_line_literal) (absurd · hnot) (absurd · hnot)
    exact (hliteral.mono fun _ _ _ => .inl).map
  | _ => rw [hkind] at hk; exact Bool.noConfusion hk

theorem tracked_item {t : Token} {rest : List Token} (hs : s.rest = t :: rest)
    (hhalt : isHalted ctx s = false) (hk : t.kind.startsItem = true) :
    Tracked (line .block) (At (line .block)) s (item ctx s) := by
  refine .within (.orSkipLine (Tracked.bind (tracked_itemContent hs hhalt hk)
    fun content υ s' hhalt' hυ => ?_))
  exact .map (hυ.tracked_lineEnd (hhalt'.trans hhalt) rfl)

theorem tracked_items (hhalt : isHalted ctx s = false) :
    Tracked (line .block) (At (line .block)) s (loop (!·.startsItem) (fun _ => item) ctx s) := by
  refine (Tracked.loop (I := fun υ _ => υ = line .block) (fun υ ctx s t rest hs hhalt hk hυ => ?_)
    hhalt rfl).mono fun _ _ _ h => h.1
  subst hυ
  have hk : t.kind.startsItem = true := by simpa using hk
  exact ⟨tracked_item hs hhalt hk, (proceeds_item ctx s t rest hs hhalt (by simpa using hk)).2⟩

/-- Where the header of a list goes on with what it consists of. -/
structure Headed (υ : Stage) (rest : List Token) : Prop where
  step : υ.after? (.keyword .consistsOf) = some (ended .block)
  ne_line : ∀ place, υ ≠ line place
  other : ∀ t ∈ rest.head?, t.kind ≠ .keyword .consistsOf → υ.after? t.kind = none

/-- The title of a list and the line break after it can both be left out. -/
theorem Headed.of_perhaps {title : Option Value} {lineBreak : Option Token} {υ τ : Stage}
    {before between rest : List Token}
    (htitle : Perhaps listKeyword listTitle TokenKind.startsValue before title υ between)
    (hbreak : Perhaps υ listBreak (· = .lineEnd) between lineBreak τ rest) : Headed τ rest := by
  cases lineBreak with
  | some t =>
    obtain rfl : τ = listBreak := hbreak
    exact ⟨rfl, fun _ => nofun, fun t _ hk => if_neg hk⟩
  | none =>
    obtain ⟨rfl, rfl, hends⟩ := hbreak
    have hends (t) (ht : t ∈ rest.head?) : t.kind ≠ .lineEnd := by simpa using hends t ht
    cases title with
    | some v =>
      obtain rfl : τ = listTitle := htitle
      refine ⟨rfl, fun _ => nofun, fun t ht hk => ?_⟩
      rw [after?, if_neg (hends t ht), if_neg hk]
    | none =>
      obtain ⟨rfl, -, hvalue⟩ := htitle
      refine ⟨rfl, fun _ => nofun, fun t ht hk => ?_⟩
      rw [after?, if_neg (by simpa using hvalue t ht), if_neg (hends t ht), if_neg hk]

theorem tracked_list (hs : s.rest.head?.map Token.kind = some (.keyword .list))
    (hhalt : isHalted ctx s = false) :
    Tracked (line .block) (At (line .block)) s (list ctx s) := by
  have hkeyword : Tracked (line .block) (At listKeyword) { s with path := s.path ++ [.list] }
      (expect (.keyword .list) .listKeyword ctx { s with path := s.path ++ [.list] }) := by
    refine tracked_expect hhalt nofun rfl (fun h => ?_) (expects_of_kinds rfl rfl)
    obtain ⟨t, rest, hrest, ht⟩ := List.exists_cons_of_head?_map hs
    exact absurd ht (of_decide_eq_true (h t (by rw [hrest]; rfl)))
  refine .within (.orSkipLine (hkeyword.bind fun k υ₁ s₁ hhalt₁ h₁ => ?_))
  obtain rfl : υ₁ = listKeyword := h₁
  refine Tracked.bind
    (tracked_optionalValue (τ := listTitle) fun kind hk => by rw [after?, if_pos hk])
    fun title υ₂ s₂ hhalt₂ h₂ => ?_
  -- the line break can come both after a title and straight after the keyword
  have hbreak : υ₂.after? .lineEnd = some listBreak := by
    cases title with
    | some v => rw [show υ₂ = listTitle from h₂]; rfl
    | none => rw [h₂.1]; rfl
  refine Tracked.bind (tracked_optionalToken nofun hbreak) fun headerEnd υ₃ s₃ hhalt₃ h₃ => ?_
  have hheaded : Headed υ₃ s₃.rest := .of_perhaps h₂ h₃
  have hhalt' := hhalt₃.trans (hhalt₂.trans (hhalt₁.trans hhalt))
  refine Tracked.bind (tracked_expect hhalt' nofun hheaded.step (fun h => ?_)
    (expects_of_kinds rfl hheaded.step)) fun c υ₄ s₄ hhalt₄ h₄ => ?_
  · exact refuses_head? hheaded.ne_line fun t ht => hheaded.other t ht (of_decide_eq_true (h t ht))
  obtain rfl : υ₄ = ended .block := h₄
  refine Tracked.bind (tracked_lineEnd (hhalt₄.trans hhalt') rfl) fun e υ₅ s₅ hhalt₅ h₅ => ?_
  obtain rfl : υ₅ = line .block := h₅
  exact .map (tracked_items (hhalt₅.trans (hhalt₄.trans hhalt')))

/-! ## Groups of elements -/

theorem tracked_blankLine {place : Place} (hs : s.rest.head?.map Token.kind = some .lineEnd) :
    Tracked (line place) (At (line place)) s ((blankLine : Parse (Line α)) ctx s) := by
  obtain ⟨t, rest, hrest, hk⟩ := List.exists_cons_of_head?_map hs
  refine .map (.next hrest ?_ rfl)
  rw [step?_of_kind (hk ▸ nofun), hk, after?_line_lineEnd]

theorem tracked_refuseLine {Post : α → Stage → List Token → Prop} {e : Expectation} {place : Place}
    {t : Token} {rest : List Token} (hs : s.rest = t :: rest) (hhalt : isHalted ctx s = false)
    (hrefuses : (line place).after? t.kind = none) (hexpects : (line place).Expects e) :
    Tracked (line place) Post s (refuseLine e ctx s) := by
  refine .orSkipLine (.refuse hhalt ?_ hexpects)
  rw [hs]
  change (line place).step? t = none
  rw [step?, hrefuses, ite_self]

theorem tracked_elementLine {t : Token} {rest : List Token} (hs : s.rest = t :: rest)
    (hhalt : isHalted ctx s = false) (hk : t.kind.endsElements = false) :
    Tracked (line .block) (At (line .block)) s (elementLine t.kind ctx s) := by
  have hhead : s.rest.head?.map Token.kind = some t.kind := by rw [hs]; rfl
  rw [elementLine]
  split
  · next hend => exact tracked_blankLine (hend ▸ hhead)
  split
  · next hlist => exact .map (.map (tracked_list (hlist ▸ hhead) hhalt))
  split
  · next hitem => exact .map (.map (tracked_item hs hhalt hitem))
  · next hend hlist hitem =>
    rw [TokenKind.endsElements, Bool.or_eq_false_iff] at hk
    refine tracked_refuseLine hs hhalt (after?_block ?_ hk.1) (by decide)
    rw [TokenKind.startsElements.eq_def]
    split
    · next h => exact absurd h hlist
    · next h => exact absurd h hend
    · rw [hk.2, Bool.eq_false_iff.2 hitem]
      rfl

/-- A group of elements leads from a line of a block to another one, where a new group or something
    further out must begin. -/
theorem tracked_elements {t : Token} {rest : List Token} (hs : s.rest = t :: rest)
    (hhalt : isHalted ctx s = false) (hk : t.kind.startsElements = true) :
    Tracked (line .block) (At (line .block)) s (elementsOrNone ctx s) := by
  have hgroup : Tracked (line .block) (At (line .block)) s (elements ctx s) := by
    have hdirection :
        Tracked (line .block) (At (line .block)) { s with path := s.path ++ [.elements] }
        (optionalDirection ctx { s with path := s.path ++ [.elements] }) := by
      -- the direction is only tried where one begins, so it is never refused at its first token
      by_cases hdir : t.kind.startsDirection = true
      · rw [optionalDirection_of_starts (by exact hs) hdir]
        refine .attempt (.orSkipLine (tracked_direction hhalt (fun _ => after?_line_direction) ?_))
        intro h
        have := h t (hs ▸ rfl)
        simp [hdir] at this
      · rw [optionalDirection_of_not (by simpa [hs] using hdir)]
        exact .stay rfl
    refine .within (hdirection.bind fun d υ s' hhalt' hυ => ?_)
    obtain rfl : υ = line .block := hυ
    refine .map (Tracked.mono (fun _ _ _ h => h.1) (.loop (I := fun υ _ => υ = line .block) ?_
      (hhalt'.trans hhalt) rfl))
    rintro υ ctx s t rest hs hhalt hk rfl
    exact ⟨tracked_elementLine hs hhalt hk, (proceeds_elementLine ctx s t rest hs hhalt hk).2⟩
  exact hgroup.dropEmpty (hhalt ▸ (outcome_elementsOrNone hs hhalt hk).1)

/-! ## Blocks -/

theorem tracked_blockHeader {place : Place} (hplace : place ≠ .outside)
    (hs : s.rest.head?.map Token.kind = some (.keyword .block)) (hhalt : isHalted ctx s = false) :
    Tracked (line place) (At (line .block)) s (blockHeader ctx s) := by
  have hstep := after?_line_block hplace
  have hkeyword :
      Tracked (line place) (At keyword) s (expect (.keyword .block) .blockKeyword ctx s) := by
    refine tracked_expect hhalt nofun hstep (fun h => ?_) (expects_of_kinds rfl hstep)
    obtain ⟨t, rest, hrest, ht⟩ := List.exists_cons_of_head?_map hs
    exact absurd ht (of_decide_eq_true (h t (by rw [hrest]; rfl)))
  refine .orSkipLine (hkeyword.bind fun k υ s' hhalt' hυ => ?_)
  obtain rfl : υ = keyword := hυ
  refine tracked_title.bind fun title υ s'' hhalt'' hυ => ?_
  exact .map (hυ.tracked_lineEnd (hhalt''.trans (hhalt'.trans hhalt)) rfl)

/-- A block ends where a new block or something further out begins. -/
theorem tracked_block {place : Place} (hplace : place ≠ .outside)
    (hs : s.rest.head?.map Token.kind = some (.keyword .block)) (hhalt : isHalted ctx s = false) :
    Tracked (line place) (fun _ υ rest => υ = line .block ∧ Begins TokenKind.endsBlock rest) s
      (block ctx s) := by
  let s₀ : Cursor := { s with path := s.path ++ [.block] }
  have hheader : Tracked (line place) (fun o υ _ => o.isSome = true ∧ υ = line .block) s₀
      (attempt blockHeader ctx s₀) :=
    .attempt ((tracked_blockHeader (s := s₀) hplace hs hhalt).mono fun _ _ _ h => ⟨rfl, h⟩)
  refine .within (hheader.bind_of_built (fun _ => .andThen inferInstance fun _ => by
    split <;> infer_instance) fun header υ s' hhalt' hυ => ?_)
  obtain ⟨hsome, rfl⟩ := hυ
  obtain ⟨⟨k, title, e⟩, rfl⟩ := Option.isSome_iff_exists.1 hsome
  -- every group leads back to a line of the block, which is the invariant of the loop
  refine .map (.loop (I := fun υ _ => υ = line .block) ?_ (hhalt'.trans hhalt) rfl)
  rintro υ ctx s t rest hs hhalt hk rfl
  refine ⟨?_, (proceeds_elementsOrNone ctx s t rest hs hhalt hk).2⟩
  by_cases helement : t.kind.startsElements = true
  · rw [if_pos helement]
    exact tracked_elements hs hhalt helement
  · rw [if_neg helement]
    exact tracked_refuseLine hs hhalt (after?_block (Bool.eq_false_iff.2 helement) hk)
      (by decide)

/-! ## Alignments -/

/-- Where `aligned` goes on with an alignment. -/
structure Named (υ : Stage) (rest : List Token) : Prop where
  step : υ.after? (.keyword .aligned) = some aligned
  ne_line : ∀ place, υ ≠ line place
  other : ∀ t ∈ rest.head?, t.kind ≠ .keyword .aligned → υ.after? t.kind = none

/-- A name after a comma must be there. -/
theorem tracked_nextName {t : Token} {rest : List Token} (hs : s.rest = t :: rest)
    (hhalt : isHalted ctx s = false) (hk : t.kind = .comma) :
    Tracked name (fun _ υ _ => υ = name) s (nextName ctx s) ∧
      (nextName ctx s).2.rest.length < s.rest.length := by
  constructor
  · have hcomma : Tracked name (At comma) s (next ctx s) :=
      .next hs (by rw [step?_of_kind (hk ▸ nofun), hk]; rfl) rfl
    refine hcomma.bind fun c υ s' hhalt' hυ => ?_
    obtain rfl : υ = comma := hυ
    refine .map (tracked_literal (hhalt'.trans hhalt) (fun kind hk => by rw [after?, if_pos hk])
      (fun h => refuses_head? (fun _ => nofun) fun t ht => ?_) fun _ => by decide)
    rw [after?, if_neg (by simpa using h t ht)]
  · refine andThen_lt ?_ fun c s' _ => (Built.leads inferInstance ctx s').length_le
    rw [next_cons hs, hs]
    exact Nat.lt_succ_self _

theorem tracked_names (hhalt : isHalted ctx s = false) :
    Tracked blocksKeyword (fun _ => Named) s (names ctx s) := by
  refine Tracked.bind_of_built (fun o => by split <;> infer_instance)
    (tracked_optionalLiteral (τ := name) fun kind hk => by rw [after?, if_pos hk])
    fun o υ s' hhalt' ho => ?_
  cases o with
  | none =>
    obtain ⟨rfl, hrest, hbegins⟩ := ho
    refine .give ⟨rfl, by simp, fun t ht hk => ?_⟩
    rw [after?, if_neg (by simpa using hbegins t ht), if_neg hk]
  | some first =>
    obtain rfl : υ = name := ho
    refine .map ((Tracked.repeatAt (fun s t rest hs hhalt hk => tracked_nextName hs hhalt hk)
      (hhalt'.trans hhalt)).mono fun more υ rest h => ?_)
    obtain ⟨rfl, hbegins⟩ := h
    refine ⟨rfl, by simp, fun t ht hk => ?_⟩
    rw [after?, if_neg (of_decide_eq_true (hbegins t ht)), if_neg hk]

theorem tracked_alignment {place : Place} (hplace : place ≠ .outside)
    (hs : s.rest.head?.map Token.kind = some (.keyword .blocks)) (hhalt : isHalted ctx s = false) :
    Tracked (line place) (At (line .page)) s (alignment ctx s) := by
  let s₀ : Cursor := { s with path := s.path ++ [.alignment] }
  have hstep := after?_line_blocks hplace
  have hkeyword : Tracked (line place) (At blocksKeyword) s₀
      (expect (.keyword .blocks) .blocksKeyword ctx s₀) := by
    refine tracked_expect hhalt nofun hstep (fun h => ?_) (expects_of_kinds rfl hstep)
    obtain ⟨t, rest, hrest, ht⟩ := List.exists_cons_of_head?_map hs
    exact absurd ht (of_decide_eq_true (h t (by rw [show s₀.rest = t :: rest from hrest]; rfl)))
  refine .within (.orSkipLine (hkeyword.bind fun k υ₁ s₁ hhalt₁ h₁ => ?_))
  obtain rfl : υ₁ = blocksKeyword := h₁
  have hhalt₁ := hhalt₁.trans hhalt
  refine (tracked_names hhalt₁).bind fun n υ₂ s₂ hhalt₂ h₂ => ?_
  have hhalt₂ := hhalt₂.trans hhalt₁
  refine Tracked.bind (tracked_expect hhalt₂ nofun h₂.step (fun h => ?_)
    (expects_of_kinds rfl h₂.step)) fun a υ₃ s₃ hhalt₃ h₃ => ?_
  · exact refuses_head? h₂.ne_line fun t ht => h₂.other t ht (of_decide_eq_true (h t ht))
  obtain rfl : υ₃ = aligned := h₃
  refine .map (tracked_direction (hhalt₃.trans hhalt₂) (fun _ _ => rfl) fun h => ?_)
  exact refuses_head? (fun _ => nofun) fun t ht => direction?_eq_none (by simpa using h t ht)

/-! ## Groups of blocks -/

/-- Where lines in a page go on: in the page itself, or after a block, where only a token that ends
    the block can come. -/
def InPage (ends : TokenKind → Bool) (υ : Stage) (rest : List Token) : Prop :=
  υ = line .page ∨ υ = line .block ∧ Begins ends rest

theorem InPage.exists_line {ends : TokenKind → Bool} {υ : Stage} {rest : List Token}
    (h : InPage ends υ rest) : ∃ place, place ≠ .outside ∧ υ = line place := by
  rcases h with rfl | ⟨rfl, -⟩
  · exact ⟨.page, nofun, rfl⟩
  · exact ⟨.block, nofun, rfl⟩

theorem tracked_blockLine {t : Token} {rest : List Token} (hs : s.rest = t :: rest)
    (hhalt : isHalted ctx s = false) (hk : t.kind.endsBlocks = false)
    (hσ : InPage TokenKind.endsBlock σ s.rest) :
    Tracked σ (fun _ => InPage TokenKind.endsBlock) s (blockLine t.kind ctx s) := by
  have hhead : s.rest.head?.map Token.kind = some t.kind := by rw [hs]; rfl
  rw [blockLine]
  by_cases hblock : t.kind = .keyword .block
  · obtain ⟨place, hplace, rfl⟩ := hσ.exists_line
    rw [if_pos hblock]
    exact .map ((tracked_block hplace (hblock ▸ hhead) hhalt).mono fun _ _ _ => .inr)
  have hends : t.kind.endsBlock = false := by
    simpa [TokenKind.endsBlocks, hblock] using hk
  -- anything but a block comes next, so no block has come before
  obtain rfl : σ = line .page := hσ.resolve_right fun h => by
    have := h.2 t (hs ▸ rfl)
    simp [hends] at this
  rw [if_neg hblock]
  split
  · next hend => exact (tracked_blankLine (hend ▸ hhead)).mono fun _ _ _ => .inl
  · next hend => exact tracked_refuseLine hs hhalt (after?_page hend hends) (by decide)

theorem tracked_blocks {t : Token} {rest : List Token} (hs : s.rest = t :: rest)
    (hhalt : isHalted ctx s = false) (hk : t.kind = .keyword .blocks ∨ t.kind.endsBlocks = false)
    (hσ : InPage TokenKind.endsBlocks σ s.rest) :
    Tracked σ (fun _ => InPage TokenKind.endsBlocks) s (blocksOrNone ctx s) := by
  have hgroup : Tracked σ (fun _ => InPage TokenKind.endsBlocks) s (blocks ctx s) := by
    let s₀ : Cursor := { s with path := s.path ++ [.blocks] }
    have halignment : Tracked σ (fun _ υ _ => υ = line .page) s₀ (optionalAlignment ctx s₀) := by
      by_cases hblocks : t.kind = .keyword .blocks
      · have hhead : s₀.rest.head?.map Token.kind = some (.keyword .blocks) := by
          rw [show s₀.rest = t :: rest from hs, ← hblocks]
          rfl
        obtain ⟨place, hplace, rfl⟩ := hσ.exists_line
        rw [optionalAlignment_of_eq hhead]
        exact .attempt (tracked_alignment hplace hhead hhalt)
      -- no alignment comes next, so the groups of a block have not just ended
      · obtain rfl : σ = line .page := hσ.resolve_right fun h => by
          have := h.2 t (hs ▸ rfl)
          simp [hk.resolve_left hblocks] at this
        rw [optionalAlignment_of_ne]
        · exact .stay rfl
        · rw [show s₀.rest = t :: rest from hs]
          exact fun h => hblocks (Option.some.inj h)
    refine .within (halignment.bind fun a υ s' hhalt' hυ => ?_)
    subst hυ
    refine .map ((Tracked.loop (I := InPage TokenKind.endsBlock) ?_ (hhalt'.trans hhalt)
      (.inl rfl)).mono fun _ υ rest h => h.1.imp_right fun hυ => ⟨hυ.1, h.2⟩)
    exact fun υ ctx s t rest hs hhalt hk hυ =>
      ⟨tracked_blockLine hs hhalt hk hυ, (proceeds_blockLine ctx s t rest hs hhalt hk).2⟩
  exact hgroup.dropEmpty (hhalt ▸ (outcome_blocksOrNone hs hhalt hk).1)

/-! ## Pages and the scene -/

/-- Before the keyword of a page there can be a device. -/
theorem tracked_optionalDevice {place : Place} {t : Token} {rest : List Token}
    (hs : s.rest = t :: rest) (hk : t.kind.startsPage = true) :
    Tracked (line place) (fun _ υ rest => υ.after? (.keyword .page) = some pageKeyword ∧
      (Begins (· ≠ .keyword .page) rest → υ.Refuses rest.head?)) s (optionalDevice ctx s) := by
  rw [optionalDevice, bind_eq, peek_andThen, hs, List.head?_cons, Option.map_some]
  have hdevice (d : Device) (hkind : t.kind = .keyword d.keyword) :
      Tracked (line place) (At device) s
        (andThen next (fun t => give (some (DeviceTag.mk d t))) ctx s) := by
    refine .map (.next hs ?_ rfl)
    rw [step?_of_kind (by simp [hkind]), hkind, after?_line_device]
  -- what starts a page is its keyword, or that of a device
  cases hkind : t.kind with
  | keyword k =>
    dsimp only
    cases hd : Device.ofKeyword? k with
    | some d =>
      refine (hdevice d (Device.eq_keyword hd ▸ hkind)).mono fun _ υ rest hυ => ?_
      rw [show υ = device from hυ]
      refine ⟨rfl, fun h => refuses_head? (by simp) fun t ht => ?_⟩
      rw [after?, if_neg (of_decide_eq_true (h t ht))]
    | none =>
      have hpage : k = .page := by
        rw [hkind] at hk
        cases k <;> first | rfl | exact Bool.noConfusion hk | cases hd
      refine .give ⟨after?_line_page place, fun h => ?_⟩
      exact absurd (hpage ▸ hkind) (of_decide_eq_true (h t (hs ▸ rfl)))
  | _ => rw [hkind] at hk; exact Bool.noConfusion hk

theorem tracked_pageHeader {place : Place} {t : Token} {rest : List Token} (hs : s.rest = t :: rest)
    (hhalt : isHalted ctx s = false) (hk : t.kind.startsPage = true) :
    Tracked (line place) (At (line .page)) s (pageHeader ctx s) := by
  refine .orSkipLine ((tracked_optionalDevice hs hk).bind fun d υ₁ s₁ hhalt₁ h₁ => ?_)
  have hhalt₁ := hhalt₁.trans hhalt
  refine Tracked.bind (tracked_expect hhalt₁ nofun h₁.1 h₁.2 (expects_of_kinds rfl h₁.1))
    fun k υ₂ s₂ hhalt₂ h₂ => ?_
  obtain rfl : υ₂ = pageKeyword := h₂
  have hhalt₂ := hhalt₂.trans hhalt₁
  refine Tracked.bind
    (tracked_value (τ := ended .page) hhalt₂ (fun kind hk => by rw [after?, if_pos hk])
      (fun h => refuses_head? (fun _ => nofun) fun t ht => ?_) (by decide))
    fun v υ₃ s₃ hhalt₃ h₃ => ?_
  · rw [after?, if_neg (by simpa using h t ht)]
  obtain rfl : υ₃ = ended .page := h₃
  exact .map (tracked_lineEnd (hhalt₃.trans hhalt₂) rfl)

/-- A page ends where a new one begins. -/
theorem tracked_page {place : Place} {t : Token} {rest : List Token} (hs : s.rest = t :: rest)
    (hhalt : isHalted ctx s = false) (hk : t.kind.startsPage = true) :
    Tracked (line place)
      (fun _ υ rest => (∃ place, υ = line place) ∧ Begins TokenKind.startsPage rest)
      s (page ctx s) := by
  let s₀ : Cursor := { s with path := s.path ++ [.page] }
  have hheader : Tracked (line place) (fun o υ _ => o.isSome = true ∧ υ = line .page) s₀
      (attempt pageHeader ctx s₀) :=
    .attempt ((tracked_pageHeader (s := s₀) hs hhalt hk).mono fun _ _ _ h => ⟨rfl, h⟩)
  refine .within (hheader.bind_of_built (fun _ => .andThen inferInstance fun _ => by
    split <;> infer_instance) fun header υ s' hhalt' hυ => ?_)
  obtain ⟨hsome, rfl⟩ := hυ
  obtain ⟨⟨d, k, title, e⟩, rfl⟩ := Option.isSome_iff_exists.1 hsome
  refine .map ((Tracked.loop (I := InPage TokenKind.endsBlocks) ?_ (hhalt'.trans hhalt)
    (.inl rfl)).mono fun _ υ rest h => ⟨h.1.exists_line.imp fun _ h => h.2, h.2⟩)
  intro υ ctx s t rest hs hhalt hk hυ
  refine ⟨?_, (proceeds_blocksOrNone ctx s t rest hs hhalt hk).2⟩
  by_cases hgroup : t.kind = .keyword .blocks ∨ t.kind = .keyword .block ∨ t.kind = .lineEnd
  · rw [if_pos (by simpa [or_assoc] using hgroup)]
    refine tracked_blocks hs hhalt (hgroup.imp_right fun h => ?_) hυ
    rcases h with h | h <;> rw [h] <;> rfl
  · rw [not_or, not_or] at hgroup
    have hends : t.kind.endsBlock = false := by
      rw [TokenKind.endsBlock.eq_def]
      split
      · next h => exact absurd h hgroup.2.1
      · next h => exact absurd h hgroup.1
      · exact hk
    -- after a group of blocks this token would have been the end of the page
    obtain rfl : υ = line .page := hυ.resolve_right fun h => by
      have := h.2 t (hs ▸ rfl)
      simp [TokenKind.endsBlocks, hends] at this
    rw [if_neg (by simpa [and_assoc] using hgroup)]
    exact tracked_refuseLine hs hhalt (after?_page hgroup.2.2 hends) (by decide)

/-- A scene is tracked from its first line, and ends at the beginning of a line. -/
theorem tracked_scene (hhalt : isHalted ctx s = false) :
    Tracked (line .outside) (fun _ υ rest => (∃ place, υ = line place) ∧ rest = []) s
      (scene ctx s) := by
  -- after the first page, only another one can come
  let I (υ : Stage) (rest : List Token) : Prop :=
    υ = line .outside ∨ (∃ place, υ = line place) ∧ Begins TokenKind.startsPage rest
  have hlines (s : Cursor) (hhalt : isHalted ctx s = false) :
      Tracked (line .outside) (fun _ υ rest => I υ rest ∧ Begins (fun _ => false) rest) s
        (loop (fun _ => false) sceneLine ctx s) := by
    refine .loop (fun υ ctx s t rest hs hhalt hk hυ => ?_) hhalt (.inl rfl)
    refine ⟨?_, (proceeds_sceneLine ctx s t rest hs hhalt hk).2⟩
    have hhead : s.rest.head?.map Token.kind = some t.kind := by rw [hs]; rfl
    by_cases hpage : t.kind.startsPage = true
    · have hend : t.kind ≠ .lineEnd := fun h => by rw [h] at hpage; exact Bool.noConfusion hpage
      obtain ⟨place, rfl⟩ : ∃ place, υ = line place := hυ.elim (fun h => ⟨_, h⟩) And.left
      rw [sceneLine, if_neg hend, if_pos hpage]
      exact .map ((tracked_page hs hhalt hpage).mono fun _ _ _ => .inr)
    · obtain rfl : υ = line .outside := hυ.resolve_right fun h => hpage (h.2 t (hs ▸ rfl))
      rw [sceneLine]
      by_cases hend : t.kind = .lineEnd
      · rw [if_pos hend]
        exact (tracked_blankLine (hend ▸ hhead)).mono fun _ _ _ => .inl
      · rw [if_neg hend, if_neg hpage]
        exact tracked_refuseLine hs hhalt (after?_outside hend (Bool.eq_false_iff.2 hpage))
          (by decide)
  refine .within (.map ((hlines { s with path := s.path ++ [.scene] } hhalt).mono ?_))
  rintro lines υ rest ⟨hυ, hnone⟩
  refine ⟨hυ.elim (fun h => ⟨_, h⟩) And.left, List.head?_eq_none_iff.1 ?_⟩
  exact Option.eq_none_iff_forall_not_mem.2 fun t ht => Bool.noConfusion (hnone t ht)

end Parse

end Wireframe
