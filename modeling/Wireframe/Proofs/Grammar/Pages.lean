import Wireframe.Proofs.Grammar.Boundary

/-!
# Page by page

No rule inside of a page goes beyond its end, so the token with which a page begins is read by the
scene itself, wherever in a page, and in whatever state of repair, the tokens before it stop. Hence
a page and its errors do not depend on the pages before (`Parsing.ofTokens_append_pages`).
-/

namespace Wireframe

namespace Parse

variable {strict : Bool} {ctx : ParseContext} {s : Cursor} {t : Token} {rest : List Token}

/-! ## The tokens of a line -/

theorem unmoved_expect (kind : TokenKind) (e : Expectation) :
    Unmoved strict (expect kind e) ctx s := by
  have hbuilt : Built (expect kind e) := inferInstance
  rw [expect, bind_eq] at hbuilt ⊢
  cases hs : s.rest with
  | nil =>
    refine .missing (e := e) hs ?_ hbuilt
    rw [peek_andThen, hs]
    exact congrFun (congrFun (if_neg (Option.some_ne_none kind).symm) ctx) s
  | cons t rest =>
    refine .peek_cons hs ?_
    split
    · exact .next hs
    · exact .refuse e

/-- A token that is there becomes a part of the answer. -/
theorem unmoved_read {α : Type} (hs : s.rest = t :: rest) (g : Token → α) :
    Unmoved strict (andThen next fun t => give (g t)) ctx s :=
  (Unmoved.next hs).map g

theorem unmoved_optionalToken {kind : TokenKind} (hkind : kind.startsPage = false) :
    Unmoved strict (optionalToken kind) ctx s := by
  rw [optionalToken, bind_eq]
  refine .peek (fun t rest hs => ?_) (y := none) (if_neg (Option.some_ne_none _).symm)
    fun k hk => if_neg ?_
  · split
    · exact unmoved_read hs some
    · exact .give none
  · rintro ⟨⟩
    exact absurd hk (by rw [hkind]; decide)

theorem unmoved_optionalValue : Unmoved strict optionalValue ctx s := by
  rw [optionalValue, bind_eq]
  refine .peek (fun t rest hs => ?_) (y := none) rfl fun kind hkind => ?_
  · split <;> first | exact unmoved_read hs _ | exact .give none
  · cases kind <;> first | rfl | exact Bool.noConfusion hkind

theorem unmoved_value (e : Expectation) : Unmoved strict (value e) ctx s := by
  refine .within (unmoved_optionalValue.bind_of_built (fun v => ?_) fun v s' _ => ?_)
  · split <;> infer_instance
  · split
    · exact .give _
    · exact .refuse e

theorem unmoved_optionalLiteral : Unmoved strict optionalLiteral ctx s := by
  rw [optionalLiteral, bind_eq]
  refine .peek (fun t rest hs => ?_) (y := none) rfl fun kind hkind => ?_
  · split <;> first | exact unmoved_read hs _ | exact .give none
  · cases kind <;> first | rfl | exact Bool.noConfusion hkind

theorem unmoved_literal (e : Expectation) : Unmoved strict (literal e) ctx s := by
  refine .within (unmoved_optionalLiteral.bind_of_built (fun l => ?_) fun l s' _ => ?_)
  · split <;> infer_instance
  · split
    · exact .give _
    · exact .refuse e

/-! ## Directions -/

/-- A token that was read is reported. -/
theorem unmoved_reportAt_fail (t : Token) (e : Expectation) :
    Unmoved false (andThen (reportAt (some t) e) fun _ => (fail : Parse Count)) ctx s := by
  have hbuilt : Built (andThen (reportAt (some t) e) fun _ => (fail : Parse Count)) :=
    .andThen (.reportAt _ _) fun _ => .fail
  intro _ hclean
  have hhalt := (hclean.of_leads (hbuilt.leads ctx s)).not_halted
  refine ⟨fun finish more _ => ?_, Bool.noConfusion⟩
  have hhalt' : isHalted { ctx with finish := finish } (s.before more) = false := hhalt
  rw [reportAt_fail_eq hhalt, reportAt_fail_eq hhalt']
  rfl

theorem unmoved_number (hs : s.rest = t :: rest) : Unmoved false number ctx s := by
  refine .within (.bind_of_built (fun t => ?_) (.next hs) fun t s' _ => ?_)
  · split
    · infer_instance
    · exact .andThen (.reportAt _ _) fun _ => .fail
  · split
    · exact .give _
    · exact unmoved_reportAt_fail t .count

theorem unmoved_optionalCount : Unmoved strict optionalCount ctx s := by
  rw [optionalCount, bind_eq]
  refine .peek (fun t rest hs => ?_) (y := none) rfl fun kind hkind => if_neg ?_
  · dsimp only
    split
    · exact .attempt (unmoved_number hs)
    · exact .give none
  · cases kind <;> first | exact Bool.noConfusion hkind | exact Bool.false_ne_true

theorem unmoved_axis : Unmoved strict axis ctx s := by
  have hbuilt : Built axis := inferInstance
  rw [axis, bind_eq] at hbuilt ⊢
  cases hs : s.rest with
  | nil => exact .missing (e := .axis) hs (by rw [peek_andThen, hs]; rfl) hbuilt
  | cons t rest =>
    refine .peek_cons hs ?_
    split
    · exact .give _
    · exact .give _
    · exact .refuse _

theorem unmoved_direction : Unmoved strict direction ctx s := by
  refine .within (unmoved_optionalCount.bind fun count s' _ =>
    unmoved_axis.bind fun axis s'' haxis => ?_)
  rcases axis_cases ctx s' with ⟨a, ha, hk⟩ | ha
  · obtain ⟨t, rest, hs, -⟩ := List.exists_cons_of_head?_map hk
    rw [ha] at haxis
    obtain rfl : s' = s'' := congrArg Prod.snd haxis
    exact (Unmoved.next hs).bind fun k _ _ => (unmoved_expect _ _).map _
  · obtain ⟨es, hes, -⟩ := reportAt_eq s'.rest.head? .axis ctx s'
    rw [ha, refuse, andThen, report, hes] at haxis
    cases haxis

/-! ## Items and lists -/

theorem unmoved_itemContent : Unmoved strict itemContent ctx s := by
  have hbuilt : Built itemContent := inferInstance
  rw [itemContent, bind_eq] at hbuilt ⊢
  cases hs : s.rest with
  | nil => exact .missing (e := .item) hs (by rw [peek_andThen, hs]; rfl) hbuilt
  | cons t rest =>
    refine .peek_cons hs ?_
    split
    · split
      · exact (Unmoved.next hs).bind fun k _ _ => unmoved_optionalValue.map _
      · exact .refuse _
    · exact (unmoved_literal _).map _
    · exact (unmoved_literal _).map _
    · exact .refuse _

theorem unmoved_item : Unmoved false item ctx s :=
  .within (.orSkipLine (unmoved_itemContent.bind fun _ _ _ => (unmoved_expect _ _).map _))

theorem startsItem_of_startsPage {kind : TokenKind} (h : kind.startsPage = true) :
    kind.startsItem = false :=
  startsItem_of_endsElements (endsElements_of_endsBlock (endsBlock_of_endsBlocks
    (endsBlocks_of_startsPage h)))

theorem unmoved_list : Unmoved false list ctx s := by
  refine .within (.orSkipLine ((unmoved_expect _ _).bind fun _ _ _ =>
    unmoved_optionalValue.bind fun _ _ _ => (unmoved_optionalToken rfl).bind fun _ _ _ =>
    (unmoved_expect _ _).bind fun _ _ _ => (unmoved_expect _ _).bind fun _ _ _ =>
      .map (.loop ?_ ?_) _))
  · exact fun kind h => by rw [startsItem_of_startsPage h]; rfl
  · exact fun _ _ _ _ => unmoved_item

/-! ## Groups of elements -/

theorem unmoved_refuseLine {α : Type} (e : Expectation) :
    Unmoved false (refuseLine e : Parse α) ctx s :=
  .orSkipLine (.refuse e)

theorem unmoved_blankLine {α : Type} (hs : s.rest = t :: rest) :
    Unmoved strict (blankLine : Parse (Line α)) ctx s :=
  unmoved_read hs Line.blank

theorem unmoved_elementLine (hs : s.rest = t :: rest) (kind : TokenKind) :
    Unmoved false (elementLine kind) ctx s := by
  rw [elementLine]
  split
  · exact unmoved_blankLine hs
  · split
    · exact (unmoved_list.map Element.list).map Line.content
    · split
      · exact (unmoved_item.map Element.item).map Line.content
      · exact unmoved_refuseLine _

theorem unmoved_optionalDirection : Unmoved strict optionalDirection ctx s := by
  rw [optionalDirection, bind_eq]
  refine .peek (fun t rest hs => ?_) (y := none) rfl fun kind hkind => if_neg ?_
  · dsimp only
    split
    · exact .attempt (.orSkipLine unmoved_direction)
    · exact .give none
  · revert hkind
    cases kind with
    | keyword k => cases k <;> decide
    | _ => first | decide | exact fun h => Bool.noConfusion h

theorem unmoved_elements : Unmoved strict elements ctx s :=
  .within (unmoved_optionalDirection.bind fun _ _ _ => .map (.loop
    (fun _ h => endsElements_of_endsBlock (endsBlock_of_endsBlocks (endsBlocks_of_startsPage h)))
    fun _ t _ hs => unmoved_elementLine hs t.kind) _)

/-- An answer that may be dropped where it is empty. -/
theorem Unmoved.dropEmpty {α : Type} {p : Parse α} [Built p] {isEmpty : α → Bool}
    (hp : Unmoved false p ctx s) :
    Unmoved false (andThen p fun x => if isEmpty x then Parse.fail else Parse.give x) ctx s := by
  refine hp.bind_of_built (fun x => ?_) fun x s' _ => ?_
  · split
    · exact Built.fail
    · exact Built.give x
  · split
    · exact Unmoved.fail
    · exact Unmoved.give x

/-! ## Blocks -/

theorem unmoved_blockHeader : Unmoved false blockHeader ctx s :=
  .orSkipLine ((unmoved_expect _ _).bind fun _ _ _ => unmoved_optionalValue.bind fun _ _ _ =>
    (unmoved_expect _ _).map _)

theorem unmoved_block : Unmoved false block ctx s := by
  refine .within ((Unmoved.attempt unmoved_blockHeader).bind_of_built
    (fun header => .andThen inferInstance fun groups => ?_) fun header _ _ => (Unmoved.loop
      (fun _ h => endsBlock_of_endsBlocks (endsBlocks_of_startsPage h))
      fun _ t _ hs => ?_).bind_of_built (fun groups => ?_) fun groups _ _ => ?_)
  · split
    · exact Built.give _
    · exact Built.fail
  · split
    · exact unmoved_elements.dropEmpty
    · exact unmoved_refuseLine _
  · split
    · exact Built.give _
    · exact Built.fail
  · split
    · exact Unmoved.give _
    · exact Unmoved.fail

theorem unmoved_names : Unmoved strict names ctx s := by
  refine unmoved_optionalLiteral.bind_of_built (fun _ => ?_) fun first _ _ => ?_
  · split <;> infer_instance
  · split
    · exact .give _
    · refine .map (.repeatAt rfl (fun ctx s hs => ?_) fun s t rest hs => ?_) _
      · obtain ⟨t, rest, hs⟩ := List.exists_cons_of_ne_nil hs
        refine andThen_lt ?_ fun _ s' _ => ?_
        · rw [next_cons hs, hs]
          exact Nat.lt_succ_self _
        · exact (Built.leads (p := andThen (literal .blockName) _) inferInstance ctx s').length_le
      · exact (Unmoved.next hs).bind fun _ _ _ => (unmoved_literal _).map _

theorem unmoved_alignment : Unmoved false alignment ctx s :=
  .within (.orSkipLine ((unmoved_expect _ _).bind fun _ _ _ => unmoved_names.bind fun _ _ _ =>
    (unmoved_expect _ _).bind fun _ _ _ => unmoved_direction.map _))

theorem unmoved_optionalAlignment : Unmoved strict optionalAlignment ctx s := by
  rw [optionalAlignment, bind_eq]
  refine .peek (fun t rest hs => ?_) (y := none) (if_neg (Option.some_ne_none _).symm)
    fun kind hkind => if_neg ?_
  · split
    · exact .attempt unmoved_alignment
    · exact .give none
  · rintro ⟨⟩
    exact Bool.noConfusion hkind

theorem unmoved_blockLine (hs : s.rest = t :: rest) (kind : TokenKind) :
    Unmoved false (blockLine kind) ctx s := by
  rw [blockLine]
  split
  · exact unmoved_block.map Line.content
  · split
    · exact unmoved_blankLine hs
    · exact unmoved_refuseLine _

theorem unmoved_blocks : Unmoved strict blocks ctx s :=
  .within (unmoved_optionalAlignment.bind fun _ _ _ => .map (.loop
    (fun _ h => endsBlocks_of_startsPage h) fun _ t _ hs => unmoved_blockLine hs t.kind) _)

/-! ## Pages -/

theorem unmoved_optionalDevice (hs : s.rest = t :: rest) : Unmoved strict optionalDevice ctx s := by
  rw [optionalDevice, bind_eq]
  refine .peek_cons hs ?_
  split
  · split
    · exact unmoved_read hs _
    · exact .give none
  · exact .give none

theorem unmoved_pageHeader (hs : s.rest = t :: rest) : Unmoved false pageHeader ctx s :=
  .orSkipLine ((unmoved_optionalDevice hs).bind fun _ _ _ => (unmoved_expect _ _).bind fun _ _ _ =>
    (unmoved_value _).bind fun _ _ _ => (unmoved_expect _ _).map _)

theorem unmoved_page (hs : s.rest = t :: rest) : Unmoved false page ctx s := by
  have hheader : Unmoved false pageHeader ctx { s with path := s.path ++ [.page] } :=
    unmoved_pageHeader hs
  refine .within ((Unmoved.attempt hheader).bind_of_built
    (fun header => .andThen inferInstance fun groups => ?_) fun header _ _ => (Unmoved.loop
      (fun _ h => h) fun _ t _ hs => ?_).bind_of_built (fun groups => ?_) fun groups _ _ => ?_)
  · split
    · exact Built.give _
    · exact Built.fail
  · split
    · exact unmoved_blocks.dropEmpty
    · exact unmoved_refuseLine _
  · split
    · exact Built.give _
    · exact Built.fail
  · split
    · exact Unmoved.give _
    · exact Unmoved.fail

theorem unmoved_sceneLine (hs : s.rest = t :: rest) (kind : TokenKind) :
    Unmoved false (sceneLine kind) ctx s := by
  rw [sceneLine]
  split
  · exact unmoved_blankLine hs
  · split
    · exact (unmoved_page hs).map Line.content
    · exact unmoved_refuseLine _

/-! ## Scenes -/

/-- The lines of a scene, and after them a page: the page is read after the lines. -/
theorem loop_append {more : List Token} (hmore : BeginsPage more) (hends : EndsLine s.rest)
    (hclean : Clean ctx (loop (fun _ => false) sceneLine ctx s).2) (finish : Range) :
    ∃ lines s', loop (fun _ => false) sceneLine ctx s = (some lines, s') ∧ s'.rest = [] ∧
      loop (fun _ => false) sceneLine { ctx with finish := finish } (s.before more) =
        andThen (loop (fun _ => false) sceneLine) (fun others => give (lines ++ others))
          { ctx with finish := finish } (s'.before more) := by
  have hbuilt : Built (loop (fun _ => false) sceneLine) := inferInstance
  induction s using loop_induction (fun _ => false) sceneLine ctx with
  | nil s hs =>
    refine ⟨[], s, loop_end hs, hs, ?_⟩
    obtain ⟨others, s', hothers⟩ :=
      loop_isSome (fun _ => false) sceneLine { ctx with finish := finish } (s.before more)
    rw [andThen, hothers]
    rfl
  | stop s t rest hs hstop =>
    have hhalt := (hclean.of_leads (hbuilt.leads ctx s)).not_halted
    exact absurd (hstop.resolve_left (Bool.eq_false_iff.1 hhalt)) Bool.false_ne_true
  | turn s t rest hs hhalt _ ih =>
    -- each turn reads a line, alone as before the page
    have hlt := (proceeds_sceneLine ctx s t rest hs hhalt rfl).2
    have hleads := (inferInstance : Built (sceneLine t.kind)).leads ctx s
    rw [loop_turn hs hhalt rfl, if_pos hlt] at hclean ⊢
    obtain ⟨hsame, -⟩ := unmoved_sceneLine hs t.kind hends (hclean.of_leads (hbuilt.leads ctx _))
    obtain ⟨lines, s', hlines, hrest, happend⟩ := ih hlt (hends.of_leads hleads) hclean
    refine ⟨(sceneLine t.kind ctx s).1.toList ++ lines, s', by rw [hlines]; rfl, hrest, ?_⟩
    obtain ⟨others, s'', hothers⟩ :=
      loop_isSome (fun _ => false) sceneLine { ctx with finish := finish } (s'.before more)
    have hhalt' : isHalted { ctx with finish := finish } (s.before more) = false := hhalt
    rw [loop_turn (Cursor.before_cons hs more) hhalt' rfl, hsame finish more hmore,
      if_pos (Cursor.before_lt.2 hlt), happend, andThen, andThen, hothers]
    exact congrArg (fun l => (some l, s'')) (List.append_assoc ..).symm

end Parse

namespace Parsing

variable {limit : Nat} {tokens A B : List Token}

theorem ofTokens_of_loop {lines : List (Line Page)} {s : Cursor}
    (h : Parse.loop (fun _ => false) Parse.sceneLine ⟨max 1 limit, finishOf (kept tokens)⟩
      ⟨kept tokens, [.scene], []⟩ = (some lines, s)) :
    ofTokens limit tokens =
      ⟨⟨lines.filterMap Line.content?, lines.filterMap Line.blank?, []⟩, s.errors⟩ := by
  rw [ofTokens_eq, Parse.scene, Parse.within]
  dsimp only
  rw [Parse.bind_eq, List.nil_append, Parse.andThen_some h]
  rfl

theorem finishOf_append (hB : B ≠ []) : finishOf (A ++ B) = finishOf B := by
  rw [finishOf, finishOf, List.getLast?_append_of_ne_nil _ hB]

/-- Tokens that a page begins with. -/
theorem kept_beginsPage (hB : Parse.BeginsPage B) : Parse.BeginsPage (kept B) := by
  obtain ⟨t, rest, rfl, ht⟩ := hB
  refine ⟨t, kept rest, List.filter_cons_of_pos ?_, ht⟩
  cases hk : t.kind <;> rw [hk] at ht <;> first | rfl | exact Bool.noConfusion ht

theorem kept_endsLine (hA : Parse.EndsLine A) : Parse.EndsLine (kept A) := by
  rcases List.eq_nil_or_concat A with rfl | ⟨lines, last, rfl⟩
  · exact fun _ h => absurd h (Option.not_mem_none _)
  · rw [List.concat_eq_append] at hA ⊢
    have hlast : last.kind = .lineEnd := hA last (by rw [List.getLast?_concat]; rfl)
    have hkept : kept [last] = [last] := kept_eq_self (by simp [hlast, TokenKind.isSkipped])
    rw [kept_append, hkept]
    intro t ht
    rw [List.getLast?_concat] at ht
    rwa [← Option.some.inj ht]

/-- Lines that go up to a page are read as they are without the page, which is read after them. -/
theorem exists_loop_append {limit : Nat} {A more : List Token} (hmore : Parse.BeginsPage more)
    (hA : Parse.EndsLine (kept A)) (hfound : ∀ e ∈ (ofTokens limit A).errors, e.found ≠ none)
    (hlimit : (ofTokens limit A).errors.length < max 1 limit) (finish : Range) : ∃ lines errors,
      ofTokens limit A =
        ⟨⟨lines.filterMap Line.content?, lines.filterMap Line.blank?, []⟩, errors⟩ ∧
      Parse.loop (fun _ => false) Parse.sceneLine ⟨max 1 limit, finish⟩
          ⟨kept A ++ more, [.scene], []⟩ =
        Parse.andThen (Parse.loop (fun _ => false) Parse.sceneLine)
          (fun others => Parse.give (lines ++ others)) ⟨max 1 limit, finish⟩
          ⟨more, [.scene], errors⟩ := by
  have hbuilt : Parse.Built (Parse.loop (fun _ => false) Parse.sceneLine) := inferInstance
  obtain ⟨lines, s, hlines⟩ := Parse.loop_isSome (fun _ => false) Parse.sceneLine
    ⟨max 1 limit, finishOf (kept A)⟩ ⟨kept A, [.scene], []⟩
  have hresult := ofTokens_of_loop hlines
  rw [hresult] at hfound hlimit
  have hclean : Parse.Clean ⟨max 1 limit, finishOf (kept A)⟩ s :=
    ⟨decide_eq_false (Nat.not_le.2 hlimit), hfound⟩
  obtain ⟨lines', s', hlines', hrest, happend⟩ :=
    Parse.loop_append hmore hA (by rw [hlines]; exact hclean) finish
  -- this is the loop that was run
  obtain ⟨rfl, rfl⟩ : lines = lines' ∧ s = s' := by
    rw [hlines] at hlines'
    exact ⟨Option.some.inj (congrArg Prod.fst hlines'), congrArg Prod.snd hlines'⟩
  have hpath : s.path = [.scene] := by
    obtain ⟨-, -, -, -, -, hpath⟩ :=
      hbuilt.leads ⟨max 1 limit, finishOf (kept A)⟩ ⟨kept A, [.scene], []⟩
    rwa [hlines] at hpath
  have hbefore : s.before more = ⟨more, [.scene], s.errors⟩ := by
    rw [Cursor.before, hrest, hpath, List.nil_append]
  rw [hbefore] at happend
  exact ⟨lines, s.errors, hresult, happend⟩

/-- Lines that go up to a page are parsed by themselves, and so is what begins with the page:
    neither the pages nor the errors of the one change how the other is read. This takes that
    nothing was missed at the end of the lines, and that the limit on errors is not reached. -/
theorem ofTokens_append_pages (limit : Nat) (A B : List Token)
    (hA : ∀ t ∈ A.getLast?, t.kind = .lineEnd)
    (hfound : ∀ e ∈ (ofTokens limit A).errors, e.found ≠ none)
    (hB : ∃ t rest, B = t :: rest ∧ t.kind.startsPage = true)
    (hlimit : (ofTokens limit A).errors.length + (ofTokens limit B).errors.length < max 1 limit) :
    ofTokens limit (A ++ B) =
      ⟨⟨(ofTokens limit A).scene.pages ++ (ofTokens limit B).scene.pages,
        (ofTokens limit A).scene.lineEnds ++ (ofTokens limit B).scene.lineEnds, []⟩,
        (ofTokens limit A).errors ++ (ofTokens limit B).errors⟩ := by
  have hmore : Parse.BeginsPage (kept B) := kept_beginsPage hB
  have hfinish : finishOf (kept (A ++ B)) = finishOf (kept B) := by
    obtain ⟨t, rest, hkept, -⟩ := hmore
    rw [kept_append, finishOf_append (hkept ▸ List.cons_ne_nil _ _)]
  obtain ⟨lines, errors, hlines, happend⟩ := exists_loop_append hmore (kept_endsLine hA) hfound
    (Nat.lt_of_le_of_lt (Nat.le_add_right _ _) hlimit) (finishOf (kept B))
  let ctx : ParseContext := ⟨max 1 limit, finishOf (kept B)⟩
  let start : Cursor := ⟨kept B, [.scene], []⟩
  obtain ⟨others, s, hothers⟩ := Parse.loop_isSome (fun _ => false) Parse.sceneLine ctx start
  rw [hlines, ofTokens_of_loop hothers] at hlimit
  -- the page is read with the errors of the lines before its own
  have hafter : Parse.isHalted ctx (s.after errors) = false := by
    refine decide_eq_false (Nat.not_le.2 ?_)
    rwa [Cursor.after, List.length_append]
  have hstart : (⟨kept B, [.scene], errors⟩ : Cursor) = start.after errors := by
    rw [Cursor.after, List.append_nil]
  have hbuilt : Parse.Built (Parse.loop (fun _ => false) Parse.sceneLine) := inferInstance
  have hpage : Parse.loop (fun _ => false) Parse.sceneLine ctx (start.after errors) = _ :=
    hbuilt.after (by rwa [hothers])
  have hall : Parse.loop (fun _ => false) Parse.sceneLine ⟨max 1 limit, finishOf (kept (A ++ B))⟩
      ⟨kept (A ++ B), [.scene], []⟩ = (some (lines ++ others), s.after errors) := by
    rw [hfinish, kept_append]
    refine happend.trans ?_
    rw [hstart, Parse.andThen, hpage, hothers]
    rfl
  rw [hlines, ofTokens_of_loop hothers, ofTokens_of_loop hall, List.filterMap_append,
    List.filterMap_append]
  rfl

/-- Two faulty pages. -/
theorem ofTokens_append_pages_faulty :
    let token (kind : TokenKind) : Token := ⟨kind, "", .origin⟩
    let A := [token (.keyword .page), token .freeText, token .lineEnd, token .comma, token .lineEnd]
    let B := [token (.keyword .mobile), token .lineEnd, token (.keyword .block)]
    (ofTokens 9 A).errors.length = 1 ∧ (ofTokens 9 B).errors.length = 2 ∧
      (ofTokens 9 (A ++ B)).errors = (ofTokens 9 A).errors ++ (ofTokens 9 B).errors := by
  intro token A B
  refine ⟨by decide +kernel, by decide +kernel, ?_⟩
  rw [ofTokens_append_pages 9 A B (by decide) (by decide +kernel)
    ⟨_, _, rfl, rfl⟩ (by decide +kernel)]

end Parsing

end Wireframe
