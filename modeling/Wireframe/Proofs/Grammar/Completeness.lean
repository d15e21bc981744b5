import Wireframe.Proofs.Grammar.Litter

/-!
# Parsing a greedy grouping

A scene that groups well-formed rows greedily is what a parse of their tokens gives, and nothing is
reported (`replays_scene`). A group takes all that it can, so that what follows it is something
that ends it.

Bad lines among the rows are skipped, and change nothing else (`recovers_scene`): a line that
nothing begins with neither begins a group nor ends one. Only a list would be ended by it.
-/

namespace Wireframe

namespace Parse

open LitteredRow (Clear tokens litter)

variable {α : Type} {rows : List LitteredRow}

/-! ## Lists and groups of elements -/

theorem replays_items {items : List Item} (h : ∀ i ∈ items, i.IsWellFormed) :
    Replays (loop (!·.startsItem) fun _ => item) items (Row.tokens (items.map .item))
      (!·.startsItem) := by
  induction items with
  | nil => exact replays_loop_nil
  | cons i items ih =>
    obtain ⟨hi, hitems⟩ := List.forall_mem_cons.1 h
    obtain ⟨t, w, hleaves, hbegins⟩ := Row.IsWellFormed.exists_leaves (r := .item i) hi
    have hitem := replays_item hi
    rw [show i.leaves = t :: w from hleaves] at hitem
    rw [List.map_cons, Row.tokens_cons, hleaves]
    have hstops : (!t.kind.startsItem) = false := by
      rw [show t.kind.startsItem = true from hbegins]
      rfl
    have hturn : Recovers (loop (!·.startsItem) fun _ => item) (i :: items) _ _ (!·.startsItem) :=
      .turn hstops hitem.recovers (ih hitems).recovers fun _ _ => Begins.any _
    exact hturn.replays

theorem replays_list {l : ItemList} (hwell : ∀ r ∈ l.rows, r.IsWellFormed) :
    Replays list l (Row.tokens l.rows) (!·.startsItem) := by
  obtain ⟨⟨hk, htitle, hheader, hc, he⟩, hitems⟩ := List.forall_mem_cons.1 hwell
  have htokens : Row.tokens l.rows = [l.keyword] ++ (l.title.toList.map Value.token ++
      (l.headerEnd.toList ++
        ([l.consistsOf] ++ ([l.lineEnd] ++ Row.tokens (l.items.map .item))))) := by
    simp [ItemList.rows, ItemList.headRow, Row.leaves]
  rw [htokens]
  refine Replays.within (Replays.orSkipLine ((replays_expect hk _).bind_any
    ((replays_optionalValue htitle).bind ((replays_optionalToken hheader).bind
      ((replays_expect hc _).bind_any ((replays_expect he _).bind_any
        ((replays_items fun i hi => hitems _ (List.mem_map_of_mem hi)).bind_give
          (ItemList.mk l.keyword l.title l.headerEnd l.consistsOf l.lineEnd)))) ?_) ?_))) _
  · exact fun rest _ => .cons (by rw [hc]; rfl)
  · intro rest _
    cases h : l.headerEnd with
    | none => exact .cons (by rw [hc]; rfl)
    | some t => exact .cons (by rw [hheader t h]; rfl)

/-- A loop over lines, some of which are blank. -/
theorem recovers_lines {P F : α → List Row → Prop} {stops : TokenKind → Bool}
    {body : TokenKind → Parse (Line α)} (hskips : Skips stops body) {lines : List (Line α)}
    (h : RowsOf (Line.Reads P) (Line.Allows F) lines (rows.map LitteredRow.row))
    (hwell : ∀ row ∈ rows.map LitteredRow.row, row.IsWellFormed) (hclear : Clear false rows)
    (hstops : stops .lineEnd = false) (hblank : body .lineEnd = blankLine)
    (hbody : ∀ x r rows, P x (r.map LitteredRow.row) → F x (rows.map LitteredRow.row) →
      (∀ row ∈ r.map LitteredRow.row, row.IsWellFormed) → Clear false r →
      (∀ row ∈ rows.map LitteredRow.row, row.IsWellFormed) →
        TakesTurn stops body (.content x) r rows) :
    Recovers (loop stops body) lines (tokens rows) (litter rows) stops := by
  refine recovers_loop hskips h hwell hclear fun line r rows hr hallows hwell hclear hrows => ?_
  cases line with
  | content x => exact hbody x r rows hr hallows hwell hclear hrows
  | blank t =>
    replace hr : r.map LitteredRow.row = [.blank t] := hr
    obtain ⟨q, _, rfl, hq, hnil⟩ := List.map_eq_cons_iff.1 hr
    obtain rfl := List.map_eq_nil_iff.1 hnil
    have ht : t.kind = .lineEnd := hwell (.blank t) (by rw [← hq]; exact List.mem_cons_self)
    -- a blank line is one token, before any bad lines
    refine ⟨t, [], [], q.after, TokenKind.any, ?_, List.append_nil _, by rw [ht]; exact hstops, ?_,
      fun _ _ => Begins.any _⟩
    · rw [LitteredRow.tokens_cons, hq, LitteredRow.tokens_nil, List.append_nil]
      rfl
    · rw [ht, hblank]
      exact ((replays_next t).bind_give Line.blank).recovers

theorem elementLine_item {kind : TokenKind} (h : kind.startsItem = true) :
    elementLine kind = contentLine (Element.item <$> item) := by
  rw [elementLine, if_neg, if_neg, if_pos h]
  · rintro rfl
    exact Bool.noConfusion h
  · rintro rfl
    exact Bool.noConfusion h

theorem skips_elementLine : Skips TokenKind.endsElements elementLine := by
  refine fun kind h => ⟨TokenKind.endsElements_of_beginsNoLine h, .entry, ?_⟩
  rw [elementLine, if_neg, if_neg, if_neg (by rw [TokenKind.startsItem_of_beginsNoLine h]; decide)]
  · rintro rfl
    exact Bool.noConfusion h
  · rintro rfl
    exact Bool.noConfusion h

/-- An entry on a line. What follows it may begin with anything but an item, if it does not begin
    with a row that the entry does not allow. -/
theorem replays_entry {e : Element} {rows : List Row} (hallows : e.Allows True rows)
    (hwell : ∀ r ∈ e.rows, r.IsWellFormed) (hrows : ∀ r ∈ rows, r.IsWellFormed) :
    ∃ t w follow, Row.tokens e.rows = t :: w ∧ t.kind.endsElements = false ∧
      Replays (elementLine t.kind) (.content e) (t :: w) follow ∧
      (∀ kind : TokenKind, kind.startsItem = false → follow kind = true) ∧
      ∀ rest, Begins TokenKind.endsElements rest → Begins follow (Row.tokens rows ++ rest) := by
  cases e with
  | item i =>
    have hi : i.IsWellFormed := hwell _ List.mem_cons_self
    obtain ⟨t, w, hleaves, hbegins⟩ := Row.IsWellFormed.exists_leaves (r := .item i) hi
    refine ⟨t, w, TokenKind.any, ?_, endsElements_of_startsItem hbegins, ?_, fun _ _ => rfl,
      fun _ _ => Begins.any _⟩
    · rw [← hleaves]
      exact List.append_nil _
    · rw [elementLine_item hbegins, ← show Row.leaves (.item i) = t :: w from hleaves]
      exact ((replays_item hi).bind_give Element.item).bind_give Line.content
  | list l =>
    have hk : l.keyword.kind = .keyword .list := (hwell _ List.mem_cons_self).1
    -- no item may follow a list, for it would be one of the list
    refine ⟨l.keyword, _, (!·.startsItem), rfl, by rw [hk]; rfl, ?_, fun kind h => by simpa using h,
      fun rest hrest => ?_⟩
    · rw [hk]
      exact ((replays_list hwell).bind_give Element.list).bind_give Line.content
    · exact .tokens hrows (fun r hr kind h => by
        rw [startsItem_of_beginsWith (hallows trivial r hr) h]
        rfl) (hrest.mono fun kind h => by rw [startsItem_of_endsElements h]; rfl)

/-- The bad lines among the rows of an entry are all after it. -/
theorem tokens_entry {e : Element} (h : rows.map LitteredRow.row = e.rows)
    (hclear : Clear false rows) :
    tokens rows = Row.tokens e.rows ++ (litter rows).flatMap BadLine.tokens := by
  rw [← h]
  cases e with
  | item i =>
    obtain ⟨q, _, rfl, -, hnil⟩ := List.map_eq_cons_iff.1 h
    obtain rfl := List.map_eq_nil_iff.1 hnil
    simp
  | list l =>
    obtain ⟨q, rows, rfl, hq, hitems⟩ := List.map_eq_cons_iff.1 h
    refine hclear.tokens_eq (by rw [hq]; rfl) fun r hr => ?_
    have hrow : r.row ∈ l.items.map Row.item := hitems ▸ List.mem_map_of_mem hr
    obtain ⟨i, -, hi⟩ := List.mem_map.1 hrow
    rw [← hi]
    rfl

theorem recovers_entries {lines : List (Line Element)}
    (h : RowsOf (Line.Reads fun e r => r = e.rows) (Line.Allows (Element.Allows True)) lines
      (rows.map LitteredRow.row))
    (hwell : ∀ row ∈ rows.map LitteredRow.row, row.IsWellFormed) (hclear : Clear false rows) :
    Recovers (loop TokenKind.endsElements elementLine) lines (tokens rows) (litter rows)
      TokenKind.endsElements := by
  refine recovers_lines skips_elementLine h hwell hclear rfl rfl
    fun e r rows he hallows hr hclear hrows => ?_
  obtain ⟨t, w, follow, htokens, hends, hentry, hnoItem, hfollow⟩ :=
    replays_entry hallows (he ▸ hr) hrows
  refine ⟨t, w, [], litter r, follow, by rw [tokens_entry he hclear, htokens], rfl, hends,
    hentry.recovers, fun rest hrest => ?_⟩
  rw [List.append_assoc]
  exact .litter (fun kind h => hnoItem kind (TokenKind.startsItem_of_beginsNoLine h))
    (.littered (hfollow rest hrest)) _

theorem replays_some_direction {d : Direction} (hd : d.IsWellFormed) :
    Replays optionalDirection (some d) d.leaves TokenKind.any := by
  obtain ⟨t, w, hleaves, hbegins⟩ := Row.IsWellFormed.exists_leaves (r := .direction d) hd
  have hdir := (replays_direction hd).orSkipLine.attempt
  rw [show d.leaves = t :: w from hleaves] at hdir ⊢
  rw [optionalDirection, bind_eq]
  refine .peek ?_
  dsimp only
  rwa [if_pos (show t.kind.startsDirection = true from hbegins)]

theorem replays_none_direction : Replays optionalDirection none [] (!·.startsDirection) := by
  rw [optionalDirection, bind_eq]
  refine .peek_none fun o ho => ?_
  cases o with
  | none => rfl
  | some kind => exact if_neg (by simpa using ho kind rfl)

/-- A group of elements. Without a direction it needs to begin with a line that is none. -/
theorem recovers_elements {g : ElementGroup} (h : g.Reads True (rows.map LitteredRow.row))
    (hne : rows ≠ []) (hwell : ∀ row ∈ rows.map LitteredRow.row, row.IsWellFormed)
    (hclear : Clear false rows) :
    Recovers elements g (tokens rows) (litter rows) TokenKind.endsElements := by
  obtain ⟨direction, entries, lineEnds⟩ := g
  obtain ⟨rest, ⟨lines, rfl, rfl, hlines⟩, hrows⟩ := h
  refine Recovers.within ?_ .elements
  rw [bind_eq]
  cases direction with
  | some d =>
    obtain ⟨q, rows, rfl, hq, rfl⟩ := List.map_eq_cons_iff.1 hrows
    obtain ⟨hd, hrest⟩ := List.forall_mem_cons.1 hwell
    rw [hq] at hd
    rw [LitteredRow.tokens_cons, hq, LitteredRow.litter_cons]
    exact .bind_replays (replays_some_direction hd)
      (((recovers_entries hlines hrest hclear.tail).skip skips_elementLine q.after).bind_give _)
  | none =>
    obtain rfl : rows.map LitteredRow.row = rest := hrows
    refine replays_none_direction.recovers.bind ((recovers_entries hlines hwell hclear).bind_give _)
      fun more _ => .littered ?_
    -- without a direction, the group begins with an item, a list or a line end
    have hentry : ∀ r ∈ rows.map LitteredRow.row, r.isEntry := by
      refine RowsOfLines.forall_mem ⟨lines, rfl, rfl, hlines⟩ (fun _ => rfl) fun e r he => ?_
      rw [he]
      exact e.rows_isEntry
    cases rows with
    | nil => exact absurd rfl hne
    | cons q rows =>
      obtain ⟨t, w, hleaves, hbegins⟩ := (hwell q.row List.mem_cons_self).exists_leaves
      rw [List.map_cons, Row.tokens_cons, hleaves]
      refine .cons ?_
      rw [startsDirection_of_beginsWith (hentry q.row List.mem_cons_self) hbegins]
      rfl

/-! ## Blocks, pages and the scene -/

/-- A group of elements begins with a kind that such a group can begin with. -/
theorem startsElements_of_beginsWith {r : Row} (hr : r.isDirection = true ∨ r.isEntry = true)
    {kind : TokenKind} (h : r.beginsWith kind = true) :
    kind.startsElements = true ∧ kind.endsBlock = false := by
  cases kind with
  | keyword k =>
    revert h hr
    cases r <;> cases k <;> simp [Row.isEntry, Row.isDirection, Row.beginsWith] <;> decide
  | numeral n => exact ⟨rfl, rfl⟩
  | _ =>
    revert h hr
    cases r <;> simp [Row.isEntry, Row.isDirection, Row.beginsWith] <;> decide

theorem skips_elementGroups : Skips TokenKind.endsBlock fun kind =>
    if kind.startsElements then elementsOrNone else refuseLine .blockContent :=
  fun _ h => ⟨TokenKind.endsBlock_of_beginsNoLine h, _,
    if_neg (by rw [TokenKind.startsElements_of_beginsNoLine h]; decide)⟩

theorem recovers_elementGroups {groups : List ElementGroup}
    (h : Block.ReadsGroups True groups (rows.map LitteredRow.row))
    (hwell : ∀ row ∈ rows.map LitteredRow.row, row.IsWellFormed) (hclear : Clear false rows) :
    Recovers (loop TokenKind.endsBlock fun kind =>
        if kind.startsElements then elementsOrNone else refuseLine .blockContent)
      groups (tokens rows) (litter rows) TokenKind.endsBlock := by
  refine recovers_loop skips_elementGroups h hwell hclear
    fun g r rows hg hfollow hr hclear hrows => ?_
  obtain ⟨hreads, hne⟩ := hg
  cases r with
  | nil => exact absurd rfl hne
  | cons q r =>
    have hgroup : Recovers elementsOrNone g (tokens (q :: r)) (litter (q :: r))
        TokenKind.endsElements :=
      (recovers_elements hreads (List.cons_ne_nil q r) hr hclear).dropEmpty
        (Bool.not_eq_true _ ▸ fun he => hne (hreads.eq_nil_iff.2 he))
    obtain ⟨t, w, hleaves, hbegins⟩ := (hr q.row List.mem_cons_self).exists_leaves
    have hbody : q.row.isDirection = true ∨ q.row.isEntry = true := by
      have := hreads.isBody q.row List.mem_cons_self
      rwa [Row.isBody, Bool.or_eq_true] at this
    obtain ⟨hstarts, hends⟩ := startsElements_of_beginsWith hbody hbegins
    refine hgroup.takesTurn (by rw [LitteredRow.tokens_cons, hleaves]; rfl) hends (if_pos hstarts)
      fun rest hrest => ?_
    refine .tokens hrows (fun row hrow kind hkind => ?_) (hrest.mono fun _ =>
      endsElements_of_endsBlock)
    -- the next group begins with its direction
    have hdir := hfollow trivial row hrow
    cases row with
    | direction d => rw [TokenKind.endsElements, show kind.startsDirection = true from hkind,
        Bool.or_true]
    | _ => exact Bool.noConfusion hdir

theorem replays_blockHeader {k : Token} {title : Option Value} {e : Token}
    (h : (Row.block k title e).IsWellFormed) :
    Replays blockHeader (k, title, e) (Row.block k title e).leaves TokenKind.any := by
  obtain ⟨hk, htitle, he⟩ := h
  refine Replays.orSkipLine (w := [k] ++ (title.toList.map Value.token ++ [e]))
    ((replays_expect hk _).bind_any ((replays_optionalValue htitle).bind
      ((replays_expect he _).bind_give fun e => (k, title, e)) fun rest _ => ?_))
  exact .cons (by rw [he]; rfl)

theorem recovers_block {b : Block} (h : b.Reads True (rows.map LitteredRow.row))
    (hwell : ∀ row ∈ rows.map LitteredRow.row, row.IsWellFormed) (hclear : Clear false rows) :
    Recovers block b (tokens rows) (litter rows) TokenKind.endsBlock := by
  obtain ⟨rest, hgroups, hrows⟩ := h
  obtain ⟨q, rows, rfl, hq, rfl⟩ := List.map_eq_cons_iff.1 hrows
  obtain ⟨hhead, hrest⟩ := List.forall_mem_cons.1 hwell
  rw [hq] at hhead
  rw [LitteredRow.tokens_cons, hq, LitteredRow.litter_cons]
  refine Recovers.within ?_ .block
  exact .bind_replays (replays_blockHeader hhead).attempt
    (((recovers_elementGroups hgroups hrest hclear.tail).skip skips_elementGroups q.after).bind_give
      (Block.mk b.keyword b.title b.lineEnd))

theorem skips_blockLine : Skips TokenKind.endsBlocks blockLine := by
  refine fun kind h => ⟨TokenKind.endsBlocks_of_beginsNoLine h, .block, ?_⟩
  rw [blockLine, if_neg, if_neg]
  · rintro rfl
    exact Bool.noConfusion h
  · rintro rfl
    exact Bool.noConfusion h

theorem recovers_blockLines {lines : List (Line Block)}
    (h : RowsOf (Line.Reads (Block.Reads True))
      (Line.Allows fun _ rows => True → ∀ r ∈ rows.head?, r.isBlock) lines
      (rows.map LitteredRow.row))
    (hwell : ∀ row ∈ rows.map LitteredRow.row, row.IsWellFormed) (hclear : Clear false rows) :
    Recovers (loop TokenKind.endsBlocks blockLine) lines (tokens rows) (litter rows)
      TokenKind.endsBlocks := by
  refine recovers_lines skips_blockLine h hwell hclear rfl rfl
    fun b r rows hb hfollow hr hclear hrows => ?_
  have hblock := (recovers_block hb hr hclear).bind_give Line.content
  obtain ⟨rest, -, hhead⟩ := hb
  obtain ⟨q, r, rfl, hq, -⟩ := List.map_eq_cons_iff.1 hhead
  have hwell : b.headRow.IsWellFormed := hq ▸ hr q.row List.mem_cons_self
  have hk : b.keyword.kind = .keyword .block := hwell.1
  refine hblock.takesTurn (t := b.keyword) (by rw [LitteredRow.tokens_cons, hq]; rfl)
    (by rw [hk]; rfl) (by rw [hk]; rfl) fun rest hrest => ?_
  refine .tokens hrows (fun row hrow kind hkind => ?_) (hrest.mono fun _ => endsBlock_of_endsBlocks)
  have hisBlock := hfollow trivial row hrow
  cases row with
  | block => rw [of_decide_eq_true hkind]; rfl
  | _ => exact Bool.noConfusion hisBlock

/-- The first line of a group of blocks is blank or begins a block. -/
theorem exists_blockLine {lines : List (Line Block)} {F : Line Block → List Row → Prop}
    {rows : List Row} (h : RowsOf (Line.Reads (Block.Reads True)) F lines rows) (hne : rows ≠ [])
    (hwell : ∀ r ∈ rows, r.IsWellFormed) :
    ∃ t w, Row.tokens rows = t :: w ∧ (t.kind = .keyword .block ∨ t.kind = .lineEnd) := by
  cases h with
  | nil => exact absurd rfl hne
  | @cons line r _ rows hline =>
    cases line with
    | blank t =>
      obtain rfl : r = [.blank t] := hline
      exact ⟨t, _, rfl, .inr (hwell _ List.mem_cons_self)⟩
    | content b =>
      obtain ⟨rest, -, rfl⟩ := hline
      exact ⟨b.keyword, _, rfl, .inl (hwell _ List.mem_cons_self).1⟩

/-- What a group of blocks begins with. -/
theorem exists_leadingToken {g : BlockGroup} {rows : List Row} (h : g.Reads True rows)
    (hne : rows ≠ [])
    (hwell : ∀ r ∈ rows, r.IsWellFormed) : ∃ t w, Row.tokens rows = t :: w ∧
      (t.kind = .keyword .blocks ∨ t.kind = .keyword .block ∨ t.kind = .lineEnd) := by
  obtain ⟨alignment, members, lineEnds⟩ := g
  obtain ⟨rest, ⟨lines, rfl, rfl, hlines⟩, rfl⟩ := h
  cases alignment with
  | some a =>
    have ha : a.IsWellFormed := hwell _ List.mem_cons_self
    exact ⟨a.keyword, _, rfl, .inl ha.keyword⟩
  | none =>
    obtain ⟨t, w, htokens, hkind⟩ := exists_blockLine hlines hne hwell
    exact ⟨t, w, htokens, .inr hkind⟩

theorem recovers_blocks {g : BlockGroup} (h : g.Reads True (rows.map LitteredRow.row))
    (hne : rows.map LitteredRow.row ≠ [])
    (hwell : ∀ row ∈ rows.map LitteredRow.row, row.IsWellFormed) (hclear : Clear false rows) :
    Recovers blocks g (tokens rows) (litter rows) TokenKind.endsBlocks := by
  obtain ⟨alignment, members, lineEnds⟩ := g
  obtain ⟨rest, ⟨lines, rfl, rfl, hlines⟩, hrows⟩ := h
  refine Recovers.within ?_ .blocks
  rw [bind_eq]
  cases alignment with
  | some a =>
    obtain ⟨q, rows, rfl, hq, rfl⟩ := List.map_eq_cons_iff.1 hrows
    obtain ⟨ha, hrest⟩ := List.forall_mem_cons.1 hwell
    rw [hq] at ha
    rw [LitteredRow.tokens_cons, hq, LitteredRow.litter_cons]
    exact .bind_replays (replays_some_alignment ha)
      (((recovers_blockLines hlines hrest hclear.tail).skip skips_blockLine q.after).bind_give _)
  | none =>
    -- without an alignment, the group begins with a block or a line end
    obtain rfl : rows.map LitteredRow.row = rest := hrows
    obtain ⟨t, w, htokens, hkind⟩ := exists_blockLine hlines hne hwell
    refine replays_none_alignment.recovers.bind
      ((recovers_blockLines hlines hwell hclear).bind_give _) fun more _ => .littered ?_
    rw [htokens]
    exact .cons (by rcases hkind with h | h <;> rw [h] <;> rfl)

theorem skips_blockGroups : Skips TokenKind.startsPage fun kind =>
    if kind = .keyword .blocks || kind = .keyword .block || kind = .lineEnd then blocksOrNone
    else refuseLine .block := by
  refine fun kind h => ⟨TokenKind.startsPage_of_beginsNoLine h, .block, if_neg ?_⟩
  intro hkind
  simp only [Bool.or_eq_true, decide_eq_true_eq] at hkind
  rcases hkind with (rfl | rfl) | rfl <;> exact Bool.noConfusion h

theorem recovers_blockGroups {groups : List BlockGroup}
    (h : Page.ReadsGroups True groups (rows.map LitteredRow.row))
    (hwell : ∀ row ∈ rows.map LitteredRow.row, row.IsWellFormed) (hclear : Clear false rows) :
    Recovers (loop TokenKind.startsPage fun kind =>
        if kind = .keyword .blocks || kind = .keyword .block || kind = .lineEnd then blocksOrNone
        else refuseLine .block)
      groups (tokens rows) (litter rows) TokenKind.startsPage := by
  refine recovers_loop skips_blockGroups h hwell hclear
    fun g r rows hg hfollow hr hclear hrows => ?_
  obtain ⟨hreads, hne⟩ := hg
  have hgroup : Recovers blocksOrNone g (tokens r) (litter r) TokenKind.endsBlocks :=
    (recovers_blocks hreads hne hr hclear).dropEmpty
      (Bool.not_eq_true _ ▸ fun he => hne (hreads.eq_nil_iff.2 he))
  obtain ⟨t, w, htokens, hkind⟩ := exists_leadingToken hreads hne hr
  obtain ⟨w', htokens'⟩ := LitteredRow.exists_tokens htokens
  refine hgroup.takesTurn htokens' ?_ (if_pos ?_) fun rest hrest => ?_
  · rcases hkind with h | h | h <;> rw [h] <;> rfl
  · rcases hkind with h | h | h <;> rw [h] <;> rfl
  · refine .tokens hrows (fun row hrow kind hkind => ?_) (hrest.mono fun _ =>
      endsBlocks_of_startsPage)
    -- the next group begins with its alignment
    have halignment := hfollow trivial row hrow
    cases row with
    | alignment => rw [of_decide_eq_true hkind]; rfl
    | _ => exact Bool.noConfusion halignment

theorem replays_optionalDevice {o : Option DeviceTag} (ho : ∀ d ∈ o, d.IsWellFormed) :
    Replays optionalDevice o (o.toList.map DeviceTag.token) (· = .keyword .page) := by
  rw [optionalDevice, bind_eq]
  cases o with
  | some d =>
    refine .peek ?_
    have hof : Device.ofKeyword? d.device.keyword = some d.device := by cases d.device <;> rfl
    rw [show d.token.kind = .keyword d.device.keyword from ho d rfl]
    dsimp only
    rw [hof]
    exact ((replays_next d.token).bind_give fun t => some (DeviceTag.mk d.device t)).mono
      fun _ _ => rfl
  | none =>
    refine .peek_none fun o ho => ?_
    cases o with
    | none => rfl
    | some kind => rw [of_decide_eq_true (ho kind rfl)]; rfl

theorem replays_pageHeader {device : Option DeviceTag} {k : Token} {title : Value} {e : Token}
    (h : (Row.page device k title e).IsWellFormed) :
    Replays pageHeader (device, k, title, e) (Row.page device k title e).leaves TokenKind.any := by
  obtain ⟨hdevice, hk, htitle, he⟩ := h
  refine Replays.orSkipLine (w := device.toList.map DeviceTag.token ++
    ([k] ++ ([title.token] ++ [e]))) ((replays_optionalDevice hdevice).bind
      ((replays_expect hk _).bind_any ((replays_value htitle _).bind_any
        ((replays_expect he _).bind_give fun e => (device, k, title, e)))) fun rest _ => ?_)
  exact .cons (decide_eq_true hk)

theorem recovers_page {p : Page} (h : p.Reads True (rows.map LitteredRow.row))
    (hwell : ∀ row ∈ rows.map LitteredRow.row, row.IsWellFormed) (hclear : Clear false rows) :
    Recovers page p (tokens rows) (litter rows) TokenKind.startsPage := by
  obtain ⟨rest, hgroups, hrows⟩ := h
  obtain ⟨q, rows, rfl, hq, rfl⟩ := List.map_eq_cons_iff.1 hrows
  obtain ⟨hhead, hrest⟩ := List.forall_mem_cons.1 hwell
  rw [hq] at hhead
  rw [LitteredRow.tokens_cons, hq, LitteredRow.litter_cons]
  refine Recovers.within ?_ .page
  exact .bind_replays (replays_pageHeader hhead).attempt
    (((recovers_blockGroups hgroups hrest hclear.tail).skip skips_blockGroups q.after).bind_give
      (Page.mk p.device p.keyword p.title p.lineEnd))

theorem sceneLine_page {kind : TokenKind} (h : kind.startsPage = true) :
    sceneLine kind = contentLine page := by
  rw [sceneLine, if_neg, if_pos h]
  rintro rfl
  exact Bool.noConfusion h

theorem skips_sceneLine : Skips (fun _ => false) sceneLine := by
  refine fun kind h => ⟨rfl, .page, ?_⟩
  rw [sceneLine, if_neg, if_neg (by rw [TokenKind.startsPage_of_beginsNoLine h]; decide)]
  rintro rfl
  exact Bool.noConfusion h

/-- What a greedy grouping is made of is parsed to it in spite of bad lines, before the first row
    and after each row, as long as none of them stands between the rows of a list. -/
theorem recovers_scene {s : Scene} (h : s.Reads True (rows.map LitteredRow.row))
    (hcomments : s.comments = []) (hwell : ∀ row ∈ rows.map LitteredRow.row, row.IsWellFormed)
    (hclear : Clear false rows) (before : List BadLine) :
    Recovers scene s (before.flatMap BadLine.tokens ++ tokens rows) (before ++ litter rows)
      fun _ => false := by
  obtain ⟨pages, lineEnds, comments⟩ := s
  obtain rfl : comments = [] := hcomments
  obtain ⟨lines, rfl, rfl, hlines⟩ := h
  refine Recovers.within ?_ .scene
  rw [bind_eq]
  refine ((recovers_lines skips_sceneLine hlines hwell hclear rfl rfl
    fun p r rows hp hfollow hr hclear hrows => ?_).skip skips_sceneLine before).bind_give
    fun lines => Scene.mk (lines.filterMap Line.content?) (lines.filterMap Line.blank?) []
  have hpage := (recovers_page hp hr hclear).bind_give Line.content
  obtain ⟨rest, -, hhead⟩ := hp
  obtain ⟨q, r, rfl, hq, -⟩ := List.map_eq_cons_iff.1 hhead
  obtain ⟨t, w, hleaves, hbegins⟩ := (hr q.row List.mem_cons_self).exists_leaves
  have hstarts : t.kind.startsPage = true := by
    rw [hq] at hbegins
    exact hbegins
  refine hpage.takesTurn (by rw [LitteredRow.tokens_cons, hleaves]; rfl) rfl
    (sceneLine_page hstarts) fun rest hrest => ?_
  refine .tokens hrows (fun row hrow kind hkind => ?_) (hrest.mono fun _ => Bool.noConfusion)
  -- after a page comes the next one
  have hisPage := hfollow trivial row hrow
  cases row with
  | page => exact hkind
  | _ => exact Bool.noConfusion hisPage

/-- What a greedy grouping is made of is parsed to it. -/
theorem replays_scene {s : Scene} {rows : List Row} (h : s.Reads True rows)
    (hcomments : s.comments = []) (hwell : ∀ r ∈ rows, r.IsWellFormed) :
    Replays scene s (Row.tokens rows) fun _ => false := by
  rw [← LitteredRow.map_row_clean rows] at h hwell
  have hscene := recovers_scene h hcomments hwell (LitteredRow.clear_clean rows false) []
  rw [LitteredRow.tokens_clean, LitteredRow.litter_clean] at hscene
  exact hscene.replays

end Parse

end Wireframe
