import Wireframe.Proofs.Grammar.Outcome

/-!
# The account of every rule

Each rule of the grammar keeps to an account: what it gives is made of tokens that it has read, in
the order of the source, they have the kinds of their places, and exactly if it reports an error
some tokens are lost. From the tokens of a line up: first what a row is made of, then the rows of
groups, blocks, pages and of the scene (`keeps_scene`).

A line that a loop over lines parses is never empty, which is why the loops proceed.
-/

namespace Wireframe

theorem List.exists_cons_of_head?_map {l : List Token} {kind : TokenKind}
    (h : l.head?.map Token.kind = some kind) : ∃ t rest, l = t :: rest ∧ t.kind = kind := by
  obtain ⟨t, ht, hk⟩ := Option.map_eq_some_iff.1 h
  obtain ⟨rest, hrest⟩ := List.head?_eq_some_iff.1 ht
  exact ⟨t, rest, hrest, hk⟩

namespace Parse

/-! ## The tokens of a row -/

theorem keeps_expect (kind : TokenKind) (e : Expectation) :
    Keeps (fun t used => t.kind = kind ∧ used = [t]) (expect kind e) := by
  intro ctx s
  rw [expect, bind_eq, peek_andThen]
  split
  · next h =>
    obtain ⟨t, rest, hs, hk⟩ := List.exists_cons_of_head?_map h
    exact outcome_next hs ⟨hk, rfl⟩ _ ctx
  · exact keeps_refuse e ctx s

/-- Something made of the next token, which is of a known kind. -/
theorem outcome_read {α : Type} {K : α → List Token → Prop} {f : Token → α} {s : Cursor}
    {kind : TokenKind} (h : s.rest.head?.map Token.kind = some kind)
    (hK : ∀ t, t.kind = kind → K (f t) [t]) (ctx : ParseContext) :
    Outcome K (isHalted ctx s) s (andThen next (fun t => give (f t)) ctx s) := by
  obtain ⟨t, rest, hs, hk⟩ := List.exists_cons_of_head?_map h
  have hnext := outcome_next (K := fun t' used => t' = t ∧ used = [t]) hs ⟨rfl, rfl⟩
    (isHalted ctx s) ctx
  refine hnext.bind fun t' s' used _ ht => .give ?_ _ ctx s'
  obtain ⟨rfl, rfl⟩ := ht
  exact hK t' hk

theorem keeps_optionalToken (kind : TokenKind) :
    Keeps (fun o used => (∀ t ∈ o, t.kind = kind) ∧ used = o.toList) (optionalToken kind) := by
  intro ctx s
  rw [optionalToken, bind_eq, peek_andThen]
  split
  · next h =>
    exact outcome_read h (fun t ht => ⟨fun t' ht' => Option.mem_some.1 ht' ▸ ht, rfl⟩) ctx
  · exact .give ⟨fun _ h => absurd h (Option.not_mem_none _), rfl⟩ _ ctx s

theorem keeps_optionalValue :
    Keeps (fun o used => (∀ v ∈ o, v.IsWellFormed) ∧ used = o.toList.map Value.token)
      optionalValue := by
  intro ctx s
  rw [optionalValue, bind_eq, peek_andThen]
  cases hk : s.rest.head?.map Token.kind with
  | none => exact .give ⟨fun _ h => absurd h (Option.not_mem_none _), rfl⟩ _ ctx s
  | some kind =>
    cases kind with
    | freeText =>
      exact outcome_read hk (fun t ht => ⟨fun v hv => Option.mem_some.1 hv ▸ ht, rfl⟩) ctx
    | quotation =>
      exact outcome_read hk (fun t ht => ⟨fun v hv => Option.mem_some.1 hv ▸ ht, rfl⟩) ctx
    | placeholder =>
      exact outcome_read hk (fun t ht => ⟨fun v hv => Option.mem_some.1 hv ▸ ht, rfl⟩) ctx
    | _ => exact .give ⟨fun _ h => absurd h (Option.not_mem_none _), rfl⟩ _ ctx s

theorem keeps_value (e : Expectation) :
    Keeps (fun v used => v.IsWellFormed ∧ used = [v.token]) (value e) := by
  refine Keeps.within (keeps_optionalValue.bind fun o used ho => ?_) _
  cases o with
  | some v => exact keeps_give ⟨ho.1 v rfl, by rw [ho.2]; rfl⟩
  | none => exact keeps_refuse e

theorem keeps_optionalLiteral :
    Keeps (fun o used => (∀ l ∈ o, l.IsWellFormed) ∧ used = o.toList.map Literal.token)
      optionalLiteral := by
  intro ctx s
  rw [optionalLiteral, bind_eq, peek_andThen]
  cases hk : s.rest.head?.map Token.kind with
  | none => exact .give ⟨fun _ h => absurd h (Option.not_mem_none _), rfl⟩ _ ctx s
  | some kind =>
    cases kind with
    | quotation =>
      exact outcome_read hk (fun t ht => ⟨fun l hl => Option.mem_some.1 hl ▸ ht, rfl⟩) ctx
    | placeholder =>
      exact outcome_read hk (fun t ht => ⟨fun l hl => Option.mem_some.1 hl ▸ ht, rfl⟩) ctx
    | _ => exact .give ⟨fun _ h => absurd h (Option.not_mem_none _), rfl⟩ _ ctx s

theorem keeps_literal (e : Expectation) :
    Keeps (fun l used => l.IsWellFormed ∧ used = [l.token]) (literal e) := by
  refine Keeps.within (keeps_optionalLiteral.bind fun o used ho => ?_) _
  cases o with
  | some l => exact keeps_give ⟨ho.1 l rfl, by rw [ho.2]; rfl⟩
  | none => exact keeps_refuse e

/-! ## Directions -/

/-- A number that cannot be used is read all the same. -/
theorem outcome_number {s : Cursor} {t : Token} {rest : List Token} (hs : s.rest = t :: rest)
    (ctx : ParseContext) :
    Outcome (fun c used => c.IsWellFormed ∧ used = [c.token]) (isHalted ctx s) s (number ctx s) ∧
      (number ctx s).2.rest.length < s.rest.length := by
  obtain ⟨f, hnumber, hcount⟩ : ∃ f : Token → Parse Count,
      number = within .number (andThen next f) ∧
      Keeps (fun (c : Count) more => c.IsWellFormed ∧ [t] ++ more = [c.token]) (f t) := by
    refine ⟨_, rfl, ?_⟩
    cases h : t.count? with
    | some value => exact keeps_give (x := Count.mk t value) ⟨h, rfl⟩
    | none => exact keeps_reportAt_fail _ _
  rw [hnumber]
  have hnext := next_cons (s := { s with path := s.path ++ [.number] }) hs ctx
  -- either way the number is read, and nothing else
  constructor
  · have hfirst := outcome_next (s := { s with path := s.path ++ [.number] })
      (K := fun t' used => t' = t ∧ used = [t]) hs ⟨rfl, rfl⟩ (isHalted ctx s) ctx
    refine Outcome.within (hfirst.bind fun t' s' used _ ht => ?_)
    obtain ⟨rfl, rfl⟩ := ht
    exact hcount ctx s'
  · have hle := (hcount ctx { s with path := s.path ++ [.number], rest := rest }).length_le
    rw [hs, List.length_cons]
    refine Nat.lt_succ_of_le (Nat.le_trans (Nat.le_of_eq ?_) hle)
    rw [Parse.within, andThen, hnext]

theorem keeps_optionalCount :
    Keeps (fun o used => (∀ c ∈ o, c.IsWellFormed) ∧ used = o.toList.map Count.token)
      optionalCount := by
  intro ctx s
  have hnone : ∀ {o : Option Count}, o = none →
      (∀ c ∈ o, c.IsWellFormed) ∧ [] = o.toList.map Count.token := by
    rintro _ rfl
    exact ⟨fun _ h => absurd h (Option.not_mem_none _), rfl⟩
  rw [optionalCount, bind_eq, peek_andThen]
  cases hk : s.rest.head?.map Token.kind with
  | none => exact .give (hnone rfl) _ ctx s
  | some kind =>
    obtain ⟨t, rest, hs, -⟩ := List.exists_cons_of_head?_map hk
    dsimp only
    split
    · obtain ⟨hout, hlt⟩ := outcome_number hs ctx
      refine (hout.attempt fun _ => hlt).mono fun o used ho => ?_
      cases o with
      | some c => exact ⟨fun c' hc' => Option.mem_some.1 hc' ▸ ho.1, ho.2⟩
      | none => rw [show used = [] from ho]; exact hnone rfl
    · exact .give (hnone rfl) _ ctx s

/-- An axis is told by the keyword for it, which is not read. -/
theorem axis_cases (ctx : ParseContext) (s : Cursor) :
    (∃ a, axis ctx s = (some a, s) ∧ s.rest.head?.map Token.kind = some (.keyword a.keyword)) ∨
      axis ctx s = refuse .axis ctx s := by
  rw [axis, bind_eq, peek_andThen]
  cases hk : s.rest.head?.map Token.kind with
  | none => exact .inr rfl
  | some kind =>
    cases kind with
    | keyword k =>
      cases k with
      | rows => exact .inl ⟨.row, rfl, rfl⟩
      | columns => exact .inl ⟨.column, rfl, rfl⟩
      | _ => exact .inr rfl
    | _ => exact .inr rfl

theorem keeps_direction :
    Keeps (fun d used => d.IsWellFormed ∧ used = d.leaves) direction := by
  refine Keeps.within (keeps_optionalCount.bind fun count used hcount ctx s => ?_) _
  rcases (axis_cases ctx s).symm with ha | ⟨a, ha, hk⟩
  · exact outcome_of_refuse ha _
  rw [bind_eq, andThen_some ha]
  obtain ⟨t, rest, hs, ht⟩ := List.exists_cons_of_head?_map hk
  refine Outcome.bind (K := fun k used => k.kind = .keyword a.keyword ∧ used = [k])
    (outcome_next hs ⟨ht, rfl⟩ _ ctx) fun k s' _ _ hkey => ?_
  refine ((keeps_expect _ _).bind fun e more he => keeps_give ?_) ctx s'
  obtain ⟨hkind, rfl⟩ := hkey
  obtain ⟨hend, rfl⟩ := he
  refine ⟨⟨hcount.1, hkind, hend⟩, ?_⟩
  rw [hcount.2]
  rfl

/-! ## Items and lists -/

theorem Widget.eq_keyword {k : Keyword} {w : Widget} (h : Widget.ofKeyword? k = some w) :
    k = w.keyword := by
  cases k <;> cases h <;> rfl

/-- What an item shows: a widget with its value, or a literal; anything else is refused. -/
theorem itemContent_cases (ctx : ParseContext) (s : Cursor) :
    (∃ w : Widget, s.rest.head?.map Token.kind = some (.keyword w.keyword) ∧
      itemContent ctx s = andThen next
        (fun k => andThen optionalValue fun v => give (.widget w k v)) ctx s) ∨
    (s.rest.head?.any (·.kind.startsLiteral) ∧
      itemContent ctx s = andThen (literal .item) (fun l => give (.literal l)) ctx s) ∨
    itemContent ctx s = refuse .item ctx s := by
  rw [itemContent, bind_eq, peek_andThen]
  rcases hs : s.rest with _ | ⟨t, rest⟩
  · exact .inr (.inr rfl)
  · rw [List.head?_cons, Option.map_some, Option.any_some]
    cases t.kind with
    | keyword k =>
      cases hw : Widget.ofKeyword? k with
      | none => exact .inr (.inr (by dsimp only; rw [hw]))
      | some w =>
        refine .inl ⟨w, by rw [Widget.eq_keyword hw], ?_⟩
        dsimp only
        rw [hw]
        rfl
    | quotation => exact .inr (.inl ⟨rfl, rfl⟩)
    | placeholder => exact .inr (.inl ⟨rfl, rfl⟩)
    | _ => exact .inr (.inr rfl)

theorem keeps_itemContent :
    Keeps (fun c used => Item.ContentIsWellFormed c ∧ used = Item.contentLeaves c) itemContent := by
  intro ctx s
  rcases itemContent_cases ctx s with ⟨w, hk, h⟩ | ⟨-, h⟩ | h
  · rw [h]
    obtain ⟨t, rest, hs, ht⟩ := List.exists_cons_of_head?_map hk
    have hnext := outcome_next (K := fun k used => k.kind = .keyword w.keyword ∧ used = [k])
      hs ⟨ht, rfl⟩ (isHalted ctx s) ctx
    refine hnext.bind fun k s' _ _ hkey => ?_
    refine keeps_optionalValue.bind (fun v used hv => keeps_give ?_) ctx s'
    obtain ⟨hkind, rfl⟩ := hkey
    exact ⟨⟨hkind, hv.1⟩, by rw [hv.2, List.append_nil]; rfl⟩
  · rw [h]
    refine (keeps_literal .item).bind (fun l used hl => keeps_give ?_) ctx s
    exact ⟨hl.1, by rw [hl.2]; rfl⟩
  · exact h ▸ keeps_refuse _ ctx s

theorem keepsLine_item : KeepsLine (Spells fun i rows => rows = [.item i]) item := by
  refine KeepsLine.within (Keeps.line (keeps_itemContent.bind fun c used hc =>
    (keeps_expect _ _).bind fun e more he => keeps_give ?_) ?_) _
  · obtain ⟨hend, rfl⟩ := he
    rw [hc.2, List.append_nil]
    exact .row (r := .item ⟨c, e⟩) rfl ⟨hc.1, hend⟩
  · rintro i used ⟨rows, rfl, -, rfl⟩
    simp [Row.leaves, Item.leaves]

theorem proceeds_item :
    Proceeds (Spells fun i rows => rows = [.item i]) (!·.startsItem) fun _ => item := by
  intro ctx s t rest hs hhalt _
  exact keepsLine_item.proceeds hs hhalt

theorem keepsLine_list : KeepsLine (Spells fun l rows => rows = ItemList.rows l) list := by
  refine KeepsLine.within (Keeps.line ((keeps_expect _ _).bind fun k u₁ hk =>
    keeps_optionalValue.bind fun title u₂ ht => (keeps_optionalToken _).bind fun he u₃ hhe =>
    (keeps_expect _ _).bind fun c u₄ hc => (keeps_expect _ _).bind fun e u₅ hend =>
    (keeps_loop proceeds_item).bind fun items u₆ hitems => keeps_give ?_) ?_) _
  · obtain ⟨hk, rfl⟩ := hk
    obtain ⟨hc, rfl⟩ := hc
    obtain ⟨hend, rfl⟩ := hend
    let l : ItemList := ⟨k, title, he, c, e, items⟩
    have h := hitems.spells.cons (Q := fun l rows => rows = ItemList.rows l) (y := l)
      (r := l.headRow) ⟨hk, ht.1, hhe.1, hc, hend⟩ fun rows hrows => by
        rw [hrows.eq_flatMap, ItemList.rows, List.map_eq_flatMap]
    rw [ht.2, hhe.2, List.append_nil]
    simpa only [ItemList.headRow, Row.leaves, List.append_assoc, List.cons_append,
      List.nil_append] using h
  · rintro l used ⟨rows, rfl, -, rfl⟩
    simp [ItemList.rows, ItemList.headRow, Row.leaves]

/-! ## Groups of elements -/

/-- A blank line where there is a line end. -/
theorem outcome_blankLine {α : Type} {P : α → List Row → Prop} {s : Cursor}
    (h : s.rest.head?.map Token.kind = some .lineEnd) (ctx : ParseContext) :
    Outcome (Spells (Line.Reads P)) (isHalted ctx s) s (blankLine ctx s) ∧
      (blankLine ctx s : Option (Line α) × Cursor).2.rest.length < s.rest.length := by
  refine ⟨outcome_read h (fun t ht => .row (r := .blank t) rfl ht) ctx, ?_⟩
  obtain ⟨t, rest, hs, -⟩ := List.exists_cons_of_head?_map h
  refine andThen_lt ?_ fun x s' _ => Nat.le_refl _
  rw [next_cons hs, hs]
  exact Nat.lt_succ_self _

/-- What begins on a line is a line. -/
theorem KeepsLine.contentLine {α β : Type} {P : α → List Row → Prop} {Q : β → List Row → Prop}
    {p : Parse α} {f : α → β} (h : KeepsLine (Spells P) p)
    (hQ : ∀ x rows, P x rows → Q (f x) rows) :
    KeepsLine (Spells (Line.Reads Q)) (contentLine (f <$> p)) := by
  refine KeepsLine.map (K := Spells Q) (h.map fun x used hx => ?_) fun x used hx => hx
  obtain ⟨rows, hP, hx⟩ := hx
  exact ⟨rows, hQ x rows hP, hx⟩

theorem proceeds_elementLine :
    Proceeds (Spells (Line.Reads fun e rows => rows = Element.rows e)) TokenKind.endsElements
      elementLine := by
  intro ctx s t rest hs hhalt _
  rw [elementLine]
  split
  · next h => exact hhalt ▸ outcome_blankLine (by rw [hs, ← h]; rfl) ctx
  · split
    · exact (keepsLine_list.contentLine fun l rows h => h).proceeds hs hhalt
    · split
      · exact (keepsLine_item.contentLine fun i rows h => h).proceeds hs hhalt
      · exact (keepsLine_refuseLine _).proceeds hs hhalt

theorem keepsLine_directionLine :
    KeepsLine (fun d used => d.IsWellFormed ∧ used = d.leaves) (orSkipLine direction) := by
  refine keeps_direction.line fun d used h => ?_
  rw [h.2, Direction.leaves]
  exact List.append_ne_nil_of_right_ne_nil _ (List.cons_ne_nil _ _)

theorem optionalDirection_of_starts {ctx : ParseContext} {s : Cursor} {t : Token}
    {rest : List Token} (hs : s.rest = t :: rest) (hk : t.kind.startsDirection = true) :
    optionalDirection ctx s = attempt (orSkipLine direction) ctx s := by
  rw [optionalDirection, bind_eq, peek_andThen, hs, List.head?_cons, Option.map_some]
  dsimp only
  rw [if_pos hk]

theorem optionalDirection_of_not {ctx : ParseContext} {s : Cursor}
    (h : ∀ t ∈ s.rest.head?, t.kind.startsDirection = false) :
    optionalDirection ctx s = (some none, s) := by
  rw [optionalDirection, bind_eq, peek_andThen]
  cases hs : s.rest.head? with
  | none => rfl
  | some t =>
    rw [Option.map_some]
    dsimp only
    rw [if_neg (Bool.not_eq_true _ ▸ h t hs)]
    rfl

theorem keeps_optionalDirection :
    Keeps (Optional fun d used => d.IsWellFormed ∧ used = d.leaves) optionalDirection := by
  intro ctx s
  cases hs : s.rest with
  | nil =>
    rw [optionalDirection_of_not (by simp [hs])]
    exact .give optional_none _ ctx s
  | cons t rest =>
    by_cases hk : t.kind.startsDirection = true
    · rw [optionalDirection_of_starts hs hk]
      exact keepsLine_directionLine.attempt (hs ▸ List.cons_ne_nil _ _)
    · rw [optionalDirection_of_not (by simpa [hs] using hk)]
      exact .give optional_none _ ctx s

theorem keeps_elements : Keeps (Spells (ElementGroup.Reads False)) elements := by
  refine Keeps.within (keeps_optionalDirection.bind fun direction used hd =>
    (keeps_loop proceeds_elementLine).bind fun lines more hlines => keeps_give ?_) _
  obtain ⟨rows, hrows, hwell, rfl⟩ := hlines.spells
  have hreads : RowsOfLines (fun e r => r = Element.rows e) (Element.Allows False)
      (lines.filterMap Line.content?) (lines.filterMap Line.blank?) rows := by
    refine ⟨lines, rfl, rfl, hrows.mono (fun _ _ h => h) fun line r _ => ?_⟩
    cases line with
    | blank t => trivial
    | content e => exact e.allows_false r
  rw [List.append_nil]
  cases direction with
  | none =>
    rw [show used = [] from hd]
    exact ⟨rows, ⟨rows, hreads, rfl⟩, hwell, rfl⟩
  | some d =>
    obtain ⟨hwf, rfl⟩ := hd
    exact ⟨.direction d :: rows, ⟨rows, hreads, rfl⟩, List.forall_mem_cons.2 ⟨hwf, hwell⟩, rfl⟩

/-- Where a group of elements can begin, it reads something: a direction, or else a line. -/
theorem elements_lt {ctx : ParseContext} {s : Cursor} {t : Token} {rest : List Token}
    (hs : s.rest = t :: rest) (hhalt : isHalted ctx s = false)
    (hk : t.kind.startsElements = true) : (elements ctx s).2.rest.length < s.rest.length := by
  let s' : Cursor := { s with path := s.path ++ [.elements] }
  have hs' : s'.rest = t :: rest := hs
  change (andThen optionalDirection _ ctx s').2.rest.length < s'.rest.length
  by_cases hdir : t.kind.startsDirection = true
  · refine andThen_lt ?_ fun d s'' _ => Outcome.length_le (Keeps.bind (L := fun _ _ => True)
      (keeps_loop proceeds_elementLine) (fun _ _ _ => keeps_give trivial) ctx s'')
    rw [optionalDirection_of_starts hs' hdir]
    exact keepsLine_directionLine.lt ctx s' (hs' ▸ List.cons_ne_nil _ _)
  · have hends : t.kind.endsElements = false := by
      revert hk hdir
      cases t.kind with
      | keyword k => cases k <;> decide
      | numeral n => exact fun _ h => absurd rfl h
      | _ => decide
    have hnot : ∀ t' ∈ s'.rest.head?, t'.kind.startsDirection = false := by
      simpa [hs'] using hdir
    rw [andThen_some (optionalDirection_of_not hnot)]
    exact andThen_lt (loop_lt proceeds_elementLine hs' hhalt hends) fun _ _ _ => Nat.le_refl _

/-- A group without rows is dropped. -/
theorem Keeps.dropEmpty {α : Type} {Reads : α → List Row → Prop} {p : Parse α} {isEmpty : α → Bool}
    (hp : Keeps (Spells Reads) p) (hempty : ∀ g rows, Reads g rows → (rows = [] ↔ isEmpty g = true))
    {ctx : ParseContext} {s : Cursor} (hlt : (p ctx s).2.rest.length < s.rest.length) :
    Outcome (Spells fun g rows => Reads g rows ∧ rows ≠ []) (isHalted ctx s) s
      (andThen p (fun g => if isEmpty g then fail else Parse.give g) ctx s) := by
  refine ((hp ctx s).dropEmpty hlt fun g used hg he => ?_).mono fun g used hg => ?_
  · obtain ⟨rows, hreads, -, rfl⟩ := hg
    rw [(hempty g rows hreads).2 he, Row.tokens_nil]
  · obtain ⟨⟨rows, hreads, hg⟩, he⟩ := hg
    exact ⟨rows, ⟨hreads, fun h0 => by simp [(hempty g rows hreads).1 h0] at he⟩, hg⟩

theorem outcome_elementsOrNone {ctx : ParseContext} {s : Cursor} {t : Token} {rest : List Token}
    (hs : s.rest = t :: rest) (hhalt : isHalted ctx s = false) (hk : t.kind.startsElements = true) :
    Outcome (Spells fun g rows => g.Reads False rows ∧ rows ≠ []) (isHalted ctx s) s
        (elementsOrNone ctx s) ∧
      (elementsOrNone ctx s).2.rest.length < s.rest.length := by
  have hlt := elements_lt hs hhalt hk
  refine ⟨keeps_elements.dropEmpty (fun _ _ h => h.eq_nil_iff) hlt, andThen_lt hlt fun g s' _ => ?_⟩
  split <;> exact Nat.le_refl _

theorem proceeds_elementsOrNone :
    Proceeds (Spells fun g rows => ElementGroup.Reads False g rows ∧ rows ≠ []) TokenKind.endsBlock
      fun kind => if kind.startsElements then elementsOrNone else refuseLine .blockContent := by
  intro ctx s t rest hs hhalt _
  dsimp only
  split
  · next hk => exact hhalt ▸ outcome_elementsOrNone hs hhalt hk
  · exact (keepsLine_refuseLine _).proceeds hs hhalt

/-! ## Blocks -/

theorem keepsLine_blockHeader :
    KeepsLine (fun h used => (Row.block h.1 h.2.1 h.2.2).IsWellFormed ∧
      used = (Row.block h.1 h.2.1 h.2.2).leaves) blockHeader := by
  refine Keeps.line ((keeps_expect _ _).bind fun k _ hk =>
    keeps_optionalValue.bind fun title _ ht =>
    (keeps_expect _ _).bind fun e _ he => keeps_give ?_) ?_
  · obtain ⟨hk, rfl⟩ := hk
    obtain ⟨he, rfl⟩ := he
    exact ⟨⟨hk, ht.1, he⟩, by rw [ht.2]; rfl⟩
  · rintro h used ⟨-, rfl⟩
    exact List.cons_ne_nil _ _

theorem keepsLine_block : KeepsLine (Spells (Block.Reads False)) block := by
  refine KeepsLine.within ⟨fun ctx s => (keepsLine_blockHeader.keeps ctx s).bind_attempt ?_ ?_,
    fun ctx s hs => andThen_lt (keepsLine_blockHeader.lt ctx s hs) ?_⟩ _
  · rintro ⟨k, title, e⟩ s' used - ⟨hwf, rfl⟩
    refine (keeps_loop proceeds_elementsOrNone).bind
      (fun groups more hgroups => keeps_give ?_) ctx s'
    rw [List.append_nil]
    refine hgroups.spells.cons hwf fun rows hrows => ⟨rows, ?_, rfl⟩
    exact hrows.mono (fun _ _ h => h) fun _ _ _ h => h.elim
  · exact fun s' _ => (keeps_loop proceeds_elementsOrNone ctx s').andThen_fail
  · rintro (_ | ⟨k, title, e⟩) s' -
    · exact (keeps_loop proceeds_elementsOrNone ctx s').andThen_fail
        (L := fun _ _ => True) |>.length_le
    · exact Outcome.length_le (Keeps.bind (L := fun _ _ => True)
        (keeps_loop proceeds_elementsOrNone) (fun _ _ _ => keeps_give trivial) ctx s')

/-! ## Groups of blocks -/

/-- A name and the comma before it. -/
theorem outcome_nextName {ctx : ParseContext} {s : Cursor} {t : Token} {rest : List Token}
    (hs : s.rest = t :: rest) (hk : t.kind = .comma) :
    Outcome (fun n used => (n.1.kind = .comma ∧ n.2.IsWellFormed) ∧ used = [n.1, n.2.token])
      (isHalted ctx s) s (nextName ctx s) := by
  have hnext := outcome_next (K := fun c used => c.kind = .comma ∧ used = [c]) hs ⟨hk, rfl⟩
    (isHalted ctx s) ctx
  refine hnext.bind fun c s' _ _ hc => (keeps_literal _).bind (fun l _ hl => keeps_give ?_) ctx s'
  obtain ⟨hcomma, rfl⟩ := hc
  obtain ⟨hwf, rfl⟩ := hl
  exact ⟨⟨hcomma, hwf⟩, rfl⟩

theorem keeps_names :
    Keeps (fun n used => (∀ l ∈ n.1, Literal.IsWellFormed l) ∧ (∀ t ∈ n.2, t.kind = .comma) ∧
      n.2.length = n.1.length - 1 ∧ used = separated (n.1.map Literal.token) n.2) names := by
  refine keeps_optionalLiteral.bind fun o used ho => ?_
  cases o with
  | none =>
    refine keeps_give ⟨by simp, by simp, rfl, ?_⟩
    rw [ho.2]
    rfl
  | some first =>
    refine (keeps_repeatAt (fun n used hn => ?_) fun ctx s t rest hs hk =>
      outcome_nextName hs hk).bind fun more used' hmore => keeps_give ?_
    · rw [hn.2]
      exact List.cons_ne_nil _ _
    · obtain ⟨hall, rfl⟩ := Members.iff_flatMap.1 hmore
      refine ⟨List.forall_mem_cons.2 ⟨ho.1 first rfl, ?_⟩, ?_, by simp, ?_⟩
      · exact List.forall_mem_map.2 fun n hn => (hall n hn).2
      · exact List.forall_mem_map.2 fun n hn => (hall n hn).1
      · rw [ho.2, List.map_cons, List.map_map, List.append_nil]
        exact (separated_cons_map Literal.token first.token more).symm

theorem keepsLine_alignment :
    KeepsLine (fun a used => a.IsWellFormed ∧ used = a.written) alignment := by
  refine KeepsLine.within (Keeps.line ((keeps_expect _ _).bind fun k _ hk =>
    keeps_names.bind fun n _ hn => (keeps_expect _ _).bind fun al _ hal =>
    keeps_direction.bind fun d _ hd => keeps_give ?_) ?_) _
  · obtain ⟨hk, rfl⟩ := hk
    obtain ⟨hnames, hcommas, hlen, rfl⟩ := hn
    obtain ⟨hal, rfl⟩ := hal
    obtain ⟨hd, rfl⟩ := hd
    refine ⟨⟨hk, hnames, hcommas, hlen, hal, hd⟩, ?_⟩
    rw [Alignment.written, List.append_nil]
    rfl
  · rintro a used ⟨-, rfl⟩
    exact List.cons_ne_nil _ _

theorem optionalAlignment_of_eq {ctx : ParseContext} {s : Cursor}
    (h : s.rest.head?.map Token.kind = some (.keyword .blocks)) :
    optionalAlignment ctx s = attempt alignment ctx s := by
  rw [optionalAlignment, bind_eq, peek_andThen, if_pos h]

theorem optionalAlignment_of_ne {ctx : ParseContext} {s : Cursor}
    (h : s.rest.head?.map Token.kind ≠ some (.keyword .blocks)) :
    optionalAlignment ctx s = (some none, s) := by
  rw [optionalAlignment, bind_eq, peek_andThen, if_neg h]
  rfl

theorem keeps_optionalAlignment :
    Keeps (Optional fun a used => a.IsWellFormed ∧ used = a.written) optionalAlignment := by
  intro ctx s
  by_cases h : s.rest.head?.map Token.kind = some (.keyword .blocks)
  · rw [optionalAlignment_of_eq h]
    obtain ⟨t, rest, hs, -⟩ := List.exists_cons_of_head?_map h
    exact keepsLine_alignment.attempt (hs ▸ List.cons_ne_nil _ _)
  · rw [optionalAlignment_of_ne h]
    exact .give optional_none _ ctx s

theorem proceeds_blockLine :
    Proceeds (Spells (Line.Reads (Block.Reads False))) TokenKind.endsBlocks blockLine := by
  intro ctx s t rest hs hhalt _
  rw [blockLine]
  split
  · exact (keepsLine_block.map (f := Line.content) (L := Spells (Line.Reads (Block.Reads False)))
      fun _ _ h => h).proceeds
      hs hhalt
  · split
    · next h => exact hhalt ▸ outcome_blankLine (by rw [hs, ← h]; rfl) ctx
    · exact (keepsLine_refuseLine _).proceeds hs hhalt

theorem keeps_blocks : Keeps (Spells (BlockGroup.Reads False)) blocks := by
  refine Keeps.within (keeps_optionalAlignment.bind fun alignment used ha =>
    (keeps_loop proceeds_blockLine).bind fun lines more hlines => keeps_give ?_) _
  obtain ⟨rows, hrows, hwell, rfl⟩ := hlines.spells
  have hreads : RowsOfLines (Block.Reads False) (fun _ rows => False → ∀ r ∈ rows.head?, r.isBlock)
      (lines.filterMap Line.content?) (lines.filterMap Line.blank?) rows :=
    ⟨lines, rfl, rfl, hrows.mono (fun _ _ h => h) fun line rows _ => by
      cases line with
      | blank t => trivial
      | content b => exact fun h => h.elim⟩
  rw [List.append_nil]
  cases alignment with
  | none =>
    rw [show used = [] from ha]
    exact ⟨rows, ⟨rows, hreads, rfl⟩, hwell, rfl⟩
  | some a =>
    obtain ⟨hwf, rfl⟩ := ha
    exact ⟨.alignment a :: rows, ⟨rows, hreads, rfl⟩, List.forall_mem_cons.2 ⟨hwf, hwell⟩, rfl⟩

/-- Where a group of blocks can begin, it reads something: an alignment, or else a line. -/
theorem blocks_lt {ctx : ParseContext} {s : Cursor} {t : Token} {rest : List Token}
    (hs : s.rest = t :: rest) (hhalt : isHalted ctx s = false)
    (hk : t.kind = .keyword .blocks ∨ t.kind.endsBlocks = false) :
    (blocks ctx s).2.rest.length < s.rest.length := by
  let s' : Cursor := { s with path := s.path ++ [.blocks] }
  have hs' : s'.rest = t :: rest := hs
  change (andThen optionalAlignment _ ctx s').2.rest.length < s'.rest.length
  by_cases hblocks : t.kind = .keyword .blocks
  · refine andThen_lt ?_ fun d s'' _ => Outcome.length_le (Keeps.bind (L := fun _ _ => True)
      (keeps_loop proceeds_blockLine) (fun _ _ _ => keeps_give trivial) ctx s'')
    rw [optionalAlignment_of_eq (by rw [hs', ← hblocks]; rfl)]
    exact keepsLine_alignment.lt ctx s' (hs' ▸ List.cons_ne_nil _ _)
  · have hne : s'.rest.head?.map Token.kind ≠ some (.keyword .blocks) := by
      rw [hs']
      exact fun h => hblocks (Option.some.inj h)
    rw [andThen_some (optionalAlignment_of_ne hne)]
    exact andThen_lt (loop_lt proceeds_blockLine hs' hhalt (hk.resolve_left hblocks)) fun _ _ _ =>
      Nat.le_refl _

theorem outcome_blocksOrNone {ctx : ParseContext} {s : Cursor} {t : Token} {rest : List Token}
    (hs : s.rest = t :: rest) (hhalt : isHalted ctx s = false)
    (hk : t.kind = .keyword .blocks ∨ t.kind.endsBlocks = false) :
    Outcome (Spells fun g rows => g.Reads False rows ∧ rows ≠ []) (isHalted ctx s) s
        (blocksOrNone ctx s) ∧
      (blocksOrNone ctx s).2.rest.length < s.rest.length := by
  have hlt := blocks_lt hs hhalt hk
  refine ⟨keeps_blocks.dropEmpty (fun _ _ h => h.eq_nil_iff) hlt, andThen_lt hlt fun g s' _ => ?_⟩
  split <;> exact Nat.le_refl _

/-! ## Pages and the scene -/

theorem proceeds_blocksOrNone :
    Proceeds (Spells fun g rows => BlockGroup.Reads False g rows ∧ rows ≠ []) TokenKind.startsPage
      fun kind => if kind = .keyword .blocks || kind = .keyword .block || kind = .lineEnd
        then blocksOrNone else refuseLine .block := by
  intro ctx s t rest hs hhalt _
  dsimp only
  split
  · next h =>
    rw [Bool.or_eq_true, Bool.or_eq_true, decide_eq_true_eq, decide_eq_true_eq,
      decide_eq_true_eq] at h
    refine hhalt ▸ outcome_blocksOrNone hs hhalt ?_
    rcases h with (h | h) | h
    · exact .inl h
    · exact .inr (by rw [h]; rfl)
    · exact .inr (by rw [h]; rfl)
  · exact (keepsLine_refuseLine _).proceeds hs hhalt

theorem Device.eq_keyword {k : Keyword} {d : Device} (h : Device.ofKeyword? k = some d) :
    k = d.keyword := by
  cases k <;> cases h <;> rfl

theorem keeps_optionalDevice :
    Keeps (fun o used => (∀ d ∈ o, d.IsWellFormed) ∧ used = o.toList.map DeviceTag.token)
      optionalDevice := by
  intro ctx s
  have hnone : ∀ halted ctx s,
      Outcome
        (fun o used => (∀ d ∈ o, d.IsWellFormed) ∧ used = o.toList.map DeviceTag.token) halted s
        (give none ctx s) := fun _ ctx s =>
    .give ⟨fun _ h => absurd h (Option.not_mem_none _), rfl⟩ _ ctx s
  rw [optionalDevice, bind_eq, peek_andThen]
  cases hk : s.rest.head?.map Token.kind with
  | none => exact hnone _ ctx s
  | some kind =>
    cases kind with
    | keyword k =>
      dsimp only
      cases hd : Device.ofKeyword? k with
      | none => exact hnone _ ctx s
      | some device =>
        refine outcome_read hk (fun t ht => ⟨fun d hmem => ?_, rfl⟩) ctx
        rw [← Option.mem_some.1 hmem, DeviceTag.IsWellFormed, ht, Device.eq_keyword hd]
    | _ => exact hnone _ ctx s

theorem keepsLine_pageHeader :
    KeepsLine (fun h used => (Row.page h.1 h.2.1 h.2.2.1 h.2.2.2).IsWellFormed ∧
      used = (Row.page h.1 h.2.1 h.2.2.1 h.2.2.2).leaves) pageHeader := by
  refine Keeps.line (keeps_optionalDevice.bind fun device _ hd => (keeps_expect _ _).bind
    fun k _ hk => (keeps_value _).bind fun title _ ht => (keeps_expect _ _).bind fun e _ he =>
    keeps_give ?_) ?_
  · obtain ⟨hk, rfl⟩ := hk
    obtain ⟨ht, rfl⟩ := ht
    obtain ⟨he, rfl⟩ := he
    exact ⟨⟨hd.1, hk, ht, he⟩, by rw [hd.2]; rfl⟩
  · rintro h used ⟨-, rfl⟩
    exact List.append_ne_nil_of_right_ne_nil _ (List.cons_ne_nil _ _)

theorem keepsLine_page : KeepsLine (Spells (Page.Reads False)) page := by
  refine KeepsLine.within ⟨fun ctx s => (keepsLine_pageHeader.keeps ctx s).bind_attempt ?_ ?_,
    fun ctx s hs => andThen_lt (keepsLine_pageHeader.lt ctx s hs) ?_⟩ _
  · rintro ⟨device, k, title, e⟩ s' used - ⟨hwf, rfl⟩
    refine (keeps_loop proceeds_blocksOrNone).bind (fun groups more hgroups => keeps_give ?_) ctx s'
    rw [List.append_nil]
    refine hgroups.spells.cons hwf fun rows hrows => ⟨rows, ?_, rfl⟩
    exact hrows.mono (fun _ _ h => h) fun _ _ _ h => h.elim
  · exact fun s' _ => (keeps_loop proceeds_blocksOrNone ctx s').andThen_fail
  · rintro (_ | ⟨device, k, title, e⟩) s' -
    · exact (keeps_loop proceeds_blocksOrNone ctx s').andThen_fail
        (L := fun _ _ => True) |>.length_le
    · exact Outcome.length_le (Keeps.bind (L := fun _ _ => True)
        (keeps_loop proceeds_blocksOrNone) (fun _ _ _ => keeps_give trivial) ctx s')

theorem proceeds_sceneLine :
    Proceeds (Spells (Line.Reads (Page.Reads False))) (fun _ => false) sceneLine := by
  intro ctx s t rest hs hhalt _
  rw [sceneLine]
  split
  · next h => exact hhalt ▸ outcome_blankLine (by rw [hs, ← h]; rfl) ctx
  · split
    · exact (keepsLine_page.map (f := Line.content) (L := Spells (Line.Reads (Page.Reads False)))
        fun _ _ h => h).proceeds
        hs hhalt
    · exact (keepsLine_refuseLine _).proceeds hs hhalt

theorem keeps_scene :
    Keeps (Spells fun x rows => Scene.Reads False x rows ∧ x.comments = []) scene := by
  refine Keeps.within ((keeps_loop proceeds_sceneLine).bind fun lines used hlines =>
    keeps_give ?_) _
  obtain ⟨rows, hrows, hwell, rfl⟩ := hlines.spells
  rw [List.append_nil]
  refine ⟨rows, ⟨⟨lines, rfl, rfl, hrows.mono (fun _ _ h => h) fun line rows _ => ?_⟩, rfl⟩, hwell,
    rfl⟩
  cases line with
  | blank t => trivial
  | content p => exact fun h => h.elim

/-- A scene is parsed to the end of the input, unless the limit on errors is reached before. -/
theorem scene_stops (ctx : ParseContext) (s : Cursor) :
    (∃ x, (scene ctx s).1 = some x) ∧
      ((scene ctx s).2.rest = [] ∨ isHalted ctx (scene ctx s).2 = true) := by
  let s' : Cursor := { s with path := s.path ++ [.scene] }
  obtain ⟨lines, s'', hlines⟩ := loop_isSome (fun _ => false) sceneLine ctx s'
  have hstops : (loop (fun _ => false) sceneLine ctx s').2.rest = [] ∨ _ :=
    loop_stops fun ctx s t rest hs hhalt hk => (proceeds_sceneLine ctx s t rest hs hhalt hk).2
  have hscene : scene ctx s =
      (some ⟨lines.filterMap Line.content?, lines.filterMap Line.blank?, []⟩,
        { s'' with path := s''.path.dropLast }) := by
    rw [scene, within, bind_eq, andThen_some hlines]
    rfl
  rw [hscene]
  rw [hlines] at hstops
  refine ⟨⟨_, rfl⟩, hstops.imp id fun h => h.resolve_right ?_⟩
  rintro ⟨t, rest, -, h⟩
  exact absurd h (by decide)

end Parse

end Wireframe
