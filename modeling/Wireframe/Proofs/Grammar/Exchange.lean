import Wireframe.Proofs.Scene.Renaming

/-!
# Exchanging the tokens of a parse

A parse looks at the kinds of tokens and at the counts that numbers stand for. So when its tokens
are exchanged for others that stand for the same, it does what it did, with or without errors: in
what it gives and in what it reports the tokens are exchanged, and nothing else
(`Parsing.ofTokens_exchanged`).

* `Parse.Exchanges`: two parses of which the second does with the other tokens what the first does.
  Each way to put parses together keeps to this, so every rule of the grammar does.
* `Parsing.ofTokens_unseen`: so what a parse sees of a token is its kind and, if it is a number, its
  text. Where the token is, and what else is written, changes nothing but the tokens themselves.
-/

namespace Wireframe

/-- An error of other tokens. Where it was at the end of the input it still is, which
    may be at another place. -/
def ParseError.map (f : Token → Token) (finish : Range) (e : ParseError) : ParseError :=
  ⟨e.expectation, e.found.map f, ((e.found.map f).map Token.range).getD finish, e.path⟩

/-- An error, and the one in its place after a change of tokens: the same was expected, by the same
    rules, and instead of it the changed token was found, or the end of the input as before. -/
structure ParseError.Follows (f : Token → Token) (finish : Range) (e e' : ParseError) : Prop where
  expectation : e'.expectation = e.expectation
  path : e'.path = e.path
  foundName : e'.foundName = e.foundName
  found : e'.found = e.found.map f
  range : e'.range = (e'.found.map Token.range).getD finish

theorem ParseError.follows_map {f : Token → Token} (hkind : ∀ t, (f t).kind = t.kind)
    (finish : Range) (e : ParseError) : Follows f finish e (e.map f finish) where
  expectation := rfl
  path := rfl
  foundName := by
    obtain ⟨expectation, _ | t, range, path⟩ := e
    · rfl
    · exact congrArg TokenKind.name (hkind t)
  found := rfl
  range := rfl

/-- A cursor in other tokens. -/
def Cursor.map (f : Token → Token) (finish : Range) (s : Cursor) : Cursor :=
  ⟨s.rest.map f, s.path, s.errors.map (ParseError.map f finish)⟩

namespace Cursor

variable {f : Token → Token} {finish : Range} {s : Cursor}

theorem map_nil (hs : s.rest = []) : (s.map f finish).rest = [] :=
  congrArg (List.map f) hs

theorem map_cons {t : Token} {rest : List Token} (hs : s.rest = t :: rest) :
    (s.map f finish).rest = f t :: rest.map f :=
  congrArg (List.map f) hs

theorem map_lt {s s' : Cursor} :
    (s'.map f finish).rest.length < (s.map f finish).rest.length ↔
      s'.rest.length < s.rest.length := by
  rw [map, map, List.length_map, List.length_map]

end Cursor

/-- A line of a group in other tokens. -/
def Line.map {α β : Type} (f : Token → Token) (g : α → β) : Line α → Line β
  | blank t => blank (f t)
  | content x => content (g x)

section Lines

variable {α β : Type} (f : Token → Token) (g : α → β) (lines : List (Line α))

theorem Line.filterMap_content_map :
    (lines.map (Line.map f g)).filterMap content? = (lines.filterMap content?).map g := by
  rw [List.filterMap_map, List.map_filterMap]
  exact congrArg (List.filterMap · lines) (funext fun l => by cases l <;> rfl)

theorem Line.filterMap_blank_map :
    (lines.map (Line.map f g)).filterMap blank? = (lines.filterMap blank?).map f := by
  rw [List.filterMap_map, List.map_filterMap]
  exact congrArg (List.filterMap · lines) (funext fun l => by cases l <;> rfl)

end Lines

namespace Parse

/-- Two parses of which the second does with other tokens what the first does with its own: what it
    gives is that of the first, changed by `g`. -/
def Exchanges {α β : Type} (f : Token → Token) (finish : Range) (g : α → β) (p : Parse α)
    (p' : Parse β) : Prop :=
  ∀ ctx s, p' { ctx with finish := finish } (s.map f finish) =
    ((p ctx s).1.map g, (p ctx s).2.map f finish)

namespace Exchanges

variable {f : Token → Token} {finish : Range} {α β α' β' : Type} {g : α → α'} {h : β → β'}

/-! ## Primitive parses -/

theorem give (g : α → α') (x : α) : Exchanges f finish g (Parse.give x) (Parse.give (g x)) :=
  fun _ _ => rfl

theorem fail (g : α → α') : Exchanges f finish g Parse.fail Parse.fail :=
  fun _ _ => rfl

theorem next : Exchanges f finish f Parse.next Parse.next := by
  intro ctx s
  obtain ⟨_ | ⟨t, rest⟩, path, errors⟩ := s <;> rfl

theorem isHalted_map (ctx : ParseContext) (s : Cursor) :
    isHalted { ctx with finish := finish } (s.map f finish) = isHalted ctx s := by
  rw [isHalted, isHalted, Cursor.map, List.length_map]

theorem reportAt (found : Option Token) (e : Expectation) :
    Exchanges f finish id (Parse.reportAt found e) (Parse.reportAt (found.map f) e) := by
  intro ctx s
  rw [Parse.reportAt, Parse.reportAt, isHalted_map]
  split
  · rfl
  · refine Prod.ext rfl ?_
    simp only [Cursor.map, List.map_append, List.map_cons, List.map_nil, ParseError.map]

theorem report (e : Expectation) : Exchanges f finish id (Parse.report e) (Parse.report e) := by
  intro ctx s
  have hhead : (s.map f finish).rest.head? = s.rest.head?.map f := List.head?_map
  rw [Parse.report, Parse.report, hhead]
  exact reportAt s.rest.head? e ctx s

/-! ## Parses that are put together -/

theorem bind {p : Parse α} {p' : Parse α'} {k : α → Parse β} {k' : α' → Parse β'}
    (hp : Exchanges f finish g p p') (hk : ∀ x, Exchanges f finish h (k x) (k' (g x))) :
    Exchanges f finish h (p >>= k) (p' >>= k') := by
  intro ctx s
  change andThen p' k' _ _ = ((andThen p k ctx s).1.map h, (andThen p k ctx s).2.map f finish)
  rw [andThen, andThen, hp ctx s]
  rcases p ctx s with ⟨_ | x, s'⟩
  · rfl
  · exact hk x ctx s'

theorem map {p : Parse α} {p' : Parse α'} (hp : Exchanges f finish g p p') {k : α → β}
    {k' : α' → β'}
    (hk : ∀ x, k' (g x) = h (k x)) : Exchanges f finish h (k <$> p) (k' <$> p') :=
  hp.bind fun x => by
    change Exchanges f finish h (Parse.give (k x)) (Parse.give (k' (g x)))
    rw [hk]
    exact give h (k x)

theorem refuse (g : α → α') (e : Expectation) : Exchanges f finish g (refuse e) (refuse e) :=
  (report e).bind fun _ => fail g

theorem attempt {p : Parse α} {p' : Parse α'} (hp : Exchanges f finish g p p') :
    Exchanges f finish (Option.map g) (attempt p) (attempt p') := by
  intro ctx s
  rw [Parse.attempt, Parse.attempt, hp ctx s]
  rfl

theorem within (rule : Rule) {p : Parse α} {p' : Parse α'} (hp : Exchanges f finish g p p') :
    Exchanges f finish g (within rule p) (within rule p') := by
  intro ctx s
  have hrun := hp ctx { s with path := s.path ++ [rule] }
  have hgiven := congrArg Prod.fst hrun
  have hleft := congrArg (fun run => { run.2 with path := run.2.path.dropLast }) hrun
  exact Prod.ext hgiven hleft

section Renaming

variable (hf : IsRenaming f)

include hf

theorem head?_map (tokens : List Token) :
    (tokens.map f).head?.map Token.kind = tokens.head?.map Token.kind := by
  rw [List.head?_map, Option.map_map]
  exact congrArg (Option.map · tokens.head?) (funext hf.kind)

/-- After a look at the next token both parses go on by its kind. -/
theorem peek {k : Option TokenKind → Parse α} {k' : Option TokenKind → Parse α'}
    (hk : ∀ kind, Exchanges f finish g (k kind) (k' kind)) :
    Exchanges f finish g (Parse.peek >>= k) (Parse.peek >>= k') := by
  intro ctx s
  change k' ((s.rest.map f).head?.map Token.kind) _ _ = _
  rw [head?_map hf]
  exact hk _ ctx s

theorem skipLine (ctx : ParseContext) (s : Cursor) :
    (Parse.skipLine { ctx with finish := finish } (s.map f finish)).2 =
      (Parse.skipLine ctx s).2.map f finish := by
  have hrest : ((s.rest.map f).dropWhile (·.kind ≠ .lineEnd)).tail =
      (s.rest.dropWhile (·.kind ≠ .lineEnd)).tail.map f := by
    rw [List.dropWhile_map, ← List.map_tail]
    exact congrArg (fun p => (s.rest.dropWhile p).tail.map f)
      (funext fun t => by rw [Function.comp_apply, hf.kind])
  rw [Parse.skipLine, Parse.skipLine]
  exact congrArg (Cursor.mk · _ _) hrest

theorem orSkipLine {p : Parse α} {p' : Parse α'} (hp : Exchanges f finish g p p') :
    Exchanges f finish g (orSkipLine p) (orSkipLine p') := by
  intro ctx s
  rw [Parse.orSkipLine, Parse.orSkipLine, hp ctx s]
  rcases p ctx s with ⟨_ | x, s'⟩
  · exact Prod.ext rfl (skipLine hf ctx s')
  · rfl

theorem loop {stops : TokenKind → Bool} {body : TokenKind → Parse α} {body' : TokenKind → Parse α'}
    (hbody : ∀ kind, Exchanges f finish g (body kind) (body' kind)) :
    Exchanges f finish (List.map g) (loop stops body) (loop stops body') := by
  intro ctx s
  induction s using loop_induction stops body ctx with
  | nil s hs =>
    rw [loop_end hs, loop_end (Cursor.map_nil hs)]
    rfl
  | stop s t rest hs hstop =>
    have hstop' : isHalted { ctx with finish := finish } (s.map f finish) = true ∨
        stops (f t).kind = true := by
      rwa [isHalted_map, hf.kind]
    rw [loop_stop hs hstop, loop_stop (Cursor.map_cons hs) hstop']
    rfl
  | turn s t rest hs hhalt hstops ih =>
    have hhalt' : isHalted { ctx with finish := finish } (s.map f finish) = false := by
      rwa [isHalted_map]
    have hstops' : stops (f t).kind = false := by rwa [hf.kind]
    rw [loop_turn hs hhalt hstops, loop_turn (Cursor.map_cons hs) hhalt' hstops', hf.kind,
      hbody t.kind ctx s]
    -- a turn reads as many tokens here as there, so both loops go on, or neither
    by_cases hlt : (body t.kind ctx s).2.rest.length < s.rest.length
    · rw [if_pos hlt, if_pos (Cursor.map_lt.2 hlt), ih hlt]
      refine Prod.ext (congrArg some ?_) rfl
      rw [List.map_append]
      congr 1
      · cases (body t.kind ctx s).1 <;> rfl
      · cases (Parse.loop stops body ctx (body t.kind ctx s).2).1 <;> rfl
    · rw [if_neg hlt, if_neg (mt Cursor.map_lt.1 hlt)]
      refine Prod.ext (congrArg some ?_) rfl
      cases (body t.kind ctx s).1 <;> rfl

theorem repeatAt (kind : TokenKind) {body : Parse α} {body' : Parse α'}
    (hbody : Exchanges f finish g body body') :
    Exchanges f finish (List.map g) (repeatAt kind body) (repeatAt kind body') := by
  intro ctx s
  have hhead : ∀ s : Cursor, (s.map f finish).rest.head?.map Token.kind =
      s.rest.head?.map Token.kind := fun s => head?_map hf s.rest
  induction s using repeatAt_induction kind body ctx with
  | stop s hs =>
    rw [repeatAt_stop hs, repeatAt_stop (by rwa [hhead])]
    rfl
  | turn s hs ih =>
    rw [Parse.repeatAt.eq_def kind body', Parse.repeatAt.eq_def kind body, if_pos hs,
      if_pos ((hhead s).trans hs), hbody ctx s]
    rcases hb : body ctx s with ⟨_ | x, s'⟩
    · rfl
    dsimp only [Option.map_some]
    -- as in a loop, both go on or neither
    by_cases hlt : s'.rest.length < s.rest.length
    · rw [if_pos hlt, if_pos (Cursor.map_lt.2 hlt), ih x s' hb hlt]
      refine Prod.ext ?_ rfl
      dsimp only
      rw [Option.map_map, Option.map_map]
      rfl
    · rw [if_neg hlt, if_neg (mt Cursor.map_lt.1 hlt)]
      rfl

/-! ## The rules of a line -/

theorem expect (kind : TokenKind) (e : Expectation) :
    Exchanges f finish f (expect kind e) (expect kind e) :=
  peek hf fun found => by
    split
    · exact next
    · exact refuse f e

theorem refuseLine (g : α → α') (e : Expectation) :
    Exchanges f finish g (refuseLine e) (refuseLine e) :=
  orSkipLine hf (refuse g e)

theorem optionalToken (kind : TokenKind) :
    Exchanges f finish (Option.map f) (optionalToken kind) (optionalToken kind) :=
  peek hf fun found => by
    split
    · exact next.bind fun t => give (Option.map f) (some t)
    · exact give (Option.map f) none

theorem optionalValue : Exchanges f finish (Option.map (Value.map f)) optionalValue optionalValue :=
  peek hf fun found => by
    split
    · exact next.bind fun t => give _ (some (Value.freeText t))
    · exact next.bind fun t => give _ (some (Value.quotation t))
    · exact next.bind fun t => give _ (some (Value.placeholder t))
    · exact give _ none

theorem value (e : Expectation) : Exchanges f finish (Value.map f) (value e) (value e) :=
  .within .value <| (optionalValue hf).bind fun v => by
    cases v with
    | none => exact refuse _ e
    | some v => exact give (Value.map f) v

theorem optionalLiteral :
    Exchanges f finish (Option.map (Literal.map f)) optionalLiteral optionalLiteral :=
  peek hf fun found => by
    split
    · exact next.bind fun t => give _ (some (Literal.quotation t))
    · exact next.bind fun t => give _ (some (Literal.placeholder t))
    · exact give _ none

theorem literal (e : Expectation) : Exchanges f finish (Literal.map f) (literal e) (literal e) :=
  .within .literal <| (optionalLiteral hf).bind fun l => by
    cases l with
    | none => exact refuse _ e
    | some l => exact give (Literal.map f) l

theorem number : Exchanges f finish (Count.map f) number number :=
  .within .number <| next.bind fun t => by
    rw [hf.count?]
    cases t.count? with
    | none => exact (reportAt (some t) .count).bind fun _ => fail _
    | some value => exact give (Count.map f) ⟨t, value⟩

theorem optionalCount :
    Exchanges f finish (Option.map (Count.map f)) optionalCount optionalCount :=
  peek hf fun found => by
    cases found with
    | none => exact give (Option.map (Count.map f)) none
    | some kind =>
      dsimp only
      split
      · exact (number hf).attempt
      · exact give (Option.map (Count.map f)) none

theorem axis : Exchanges f finish id axis axis :=
  peek hf fun found => by
    split
    · exact give id _
    · exact give id _
    · exact refuse id _

theorem direction : Exchanges f finish (Direction.map f) direction direction :=
  .within .direction <| (optionalCount hf).bind fun count => (axis hf).bind fun axis =>
    next.bind fun keyword => (expect hf _ _).bind fun lineEnd =>
      give (Direction.map f) ⟨count, keyword, axis, lineEnd⟩

theorem itemContent : Exchanges f finish (Item.mapContent f) itemContent itemContent :=
  peek hf fun found => by
    split
    · next k =>
      cases Widget.ofKeyword? k with
      | none => exact refuse _ _
      | some kind =>
        exact next.bind fun keyword => (optionalValue hf).bind fun value =>
          give (Item.mapContent f) (.widget kind keyword value)
    · exact (literal hf _).bind fun l => give (Item.mapContent f) (.literal l)
    · exact (literal hf _).bind fun l => give (Item.mapContent f) (.literal l)
    · exact refuse _ _

theorem item : Exchanges f finish (Item.map f) item item :=
  .within .item <| orSkipLine hf <| (itemContent hf).bind fun content =>
    (expect hf _ _).bind fun lineEnd => give (Item.map f) ⟨content, lineEnd⟩

theorem list : Exchanges f finish (ItemList.map f) list list :=
  .within .list <| orSkipLine hf <| (expect hf _ _).bind fun keyword =>
    (optionalValue hf).bind fun title => (optionalToken hf _).bind fun headerEnd =>
      (expect hf _ _).bind fun consistsOf => (expect hf _ _).bind fun lineEnd =>
        (loop hf fun _ => item hf).bind fun items =>
          give (ItemList.map f) ⟨keyword, title, headerEnd, consistsOf, lineEnd, items⟩

theorem nextName :
    Exchanges f finish (Prod.map f (Literal.map f)) nextName nextName :=
  next.bind fun comma => (literal hf _).bind fun name =>
    give (Prod.map f (Literal.map f)) (comma, name)

theorem names :
    Exchanges f finish (Prod.map (List.map (Literal.map f)) (List.map f)) names names :=
  (optionalLiteral hf).bind fun first => by
    cases first with
    | none => exact give (Prod.map (List.map (Literal.map f)) (List.map f)) ([], [])
    | some first =>
      refine (repeatAt hf .comma (nextName hf)).bind fun more => ?_
      have hmore : (first.map f :: (more.map (Prod.map f (Literal.map f))).map Prod.snd,
          (more.map (Prod.map f (Literal.map f))).map Prod.fst) =
          Prod.map (List.map (Literal.map f)) (List.map f)
            (first :: more.map Prod.snd, more.map Prod.fst) := by
        simp [Function.comp_def]
      exact hmore ▸ give _ (first :: more.map Prod.snd, more.map Prod.fst)

theorem alignment : Exchanges f finish (Alignment.map f) alignment alignment :=
  .within .alignment <| orSkipLine hf <| (expect hf _ _).bind fun keyword =>
    (names hf).bind fun (names, commas) => (expect hf _ _).bind fun aligned =>
      (direction hf).bind fun direction =>
        give (Alignment.map f) ⟨keyword, names, commas, aligned, direction⟩

theorem optionalDevice :
    Exchanges f finish (Option.map (DeviceTag.map f)) optionalDevice optionalDevice :=
  peek hf fun found => by
    split
    · next k =>
      cases Device.ofKeyword? k with
      | none => exact give (Option.map (DeviceTag.map f)) none
      | some device =>
        exact next.bind fun t => give (Option.map (DeviceTag.map f)) (some ⟨device, t⟩)
    · exact give (Option.map (DeviceTag.map f)) none

theorem blockHeader :
    Exchanges f finish (Prod.map f (Prod.map (Option.map (Value.map f)) f))
      blockHeader blockHeader :=
  orSkipLine hf <| (expect hf _ _).bind fun keyword => (optionalValue hf).bind fun title =>
    (expect hf _ _).bind fun lineEnd =>
      give (Prod.map f (Prod.map (Option.map (Value.map f)) f)) (keyword, title, lineEnd)

theorem pageHeader : Exchanges f finish
    (Prod.map (Option.map (DeviceTag.map f)) (Prod.map f (Prod.map (Value.map f) f))) pageHeader
      pageHeader :=
  orSkipLine hf <| (optionalDevice hf).bind fun device => (expect hf _ _).bind fun keyword =>
    (value hf _).bind fun title => (expect hf _ _).bind fun lineEnd =>
      give (Prod.map (Option.map (DeviceTag.map f)) (Prod.map f (Prod.map (Value.map f) f)))
        (device, keyword, title, lineEnd)

/-! ## The rules of groups -/

omit hf in
theorem blankLine (g : α → α') : Exchanges f finish (Line.map f g) blankLine blankLine :=
  next.bind fun t => give (Line.map f g) (.blank t)

omit hf in
theorem contentLine {p : Parse α} {p' : Parse α'} (hp : Exchanges f finish g p p') :
    Exchanges f finish (Line.map f g) (contentLine p) (contentLine p') :=
  hp.bind fun x => give (Line.map f g) (.content x)

theorem elementLine (kind : TokenKind) :
    Exchanges f finish (Line.map f (Element.map f)) (elementLine kind) (elementLine kind) := by
  unfold Parse.elementLine
  split
  · exact blankLine _
  split
  · exact contentLine ((list hf).map fun _ => rfl)
  split
  · exact contentLine ((item hf).map fun _ => rfl)
  · exact refuseLine hf _ _

theorem optionalDirection :
    Exchanges f finish (Option.map (Direction.map f)) optionalDirection optionalDirection :=
  peek hf fun found => by
    cases found with
    | none => exact give (Option.map (Direction.map f)) none
    | some kind =>
      dsimp only
      split
      · exact (orSkipLine hf (direction hf)).attempt
      · exact give (Option.map (Direction.map f)) none

theorem elements : Exchanges f finish (ElementGroup.map f) elements elements :=
  .within .elements <| (optionalDirection hf).bind fun direction =>
    (loop hf (elementLine hf)).bind fun lines => by
      rw [Line.filterMap_content_map, Line.filterMap_blank_map]
      exact give (ElementGroup.map f)
        ⟨direction, lines.filterMap Line.content?, lines.filterMap Line.blank?⟩

theorem elementsOrNone : Exchanges f finish (ElementGroup.map f) elementsOrNone elementsOrNone :=
  (elements hf).bind fun group => by
    have hempty : (group.map f).isEmpty = group.isEmpty := by
      simp [ElementGroup.map, ElementGroup.isEmpty]
    rw [hempty]
    split
    · exact fail _
    · exact give (ElementGroup.map f) group

theorem block : Exchanges f finish (Block.map f) block block :=
  .within .block <| (blockHeader hf).attempt.bind fun header =>
    (loop (g := ElementGroup.map f) hf fun kind => by
      split
      · exact elementsOrNone hf
      · exact refuseLine hf _ _).bind fun groups => by
        rcases header with _ | ⟨keyword, title, lineEnd⟩
        · exact fail _
        · exact give (Block.map f) ⟨keyword, title, lineEnd, groups⟩

theorem optionalAlignment :
    Exchanges f finish (Option.map (Alignment.map f)) optionalAlignment optionalAlignment :=
  peek hf fun found => by
    split
    · exact (alignment hf).attempt
    · exact give (Option.map (Alignment.map f)) none

theorem blockLine (kind : TokenKind) :
    Exchanges f finish (Line.map f (Block.map f)) (blockLine kind) (blockLine kind) := by
  unfold Parse.blockLine
  split
  · exact contentLine (block hf)
  split
  · exact blankLine _
  · exact refuseLine hf _ _

theorem blocks : Exchanges f finish (BlockGroup.map f) blocks blocks :=
  .within .blocks <| (optionalAlignment hf).bind fun alignment =>
    (loop hf (blockLine hf)).bind fun lines => by
      rw [Line.filterMap_content_map, Line.filterMap_blank_map]
      exact give (BlockGroup.map f)
        ⟨alignment, lines.filterMap Line.content?, lines.filterMap Line.blank?⟩

theorem blocksOrNone : Exchanges f finish (BlockGroup.map f) blocksOrNone blocksOrNone :=
  (blocks hf).bind fun group => by
    have hempty : (group.map f).isEmpty = group.isEmpty := by
      simp [BlockGroup.map, BlockGroup.isEmpty]
    rw [hempty]
    split
    · exact fail _
    · exact give (BlockGroup.map f) group

theorem page : Exchanges f finish (Page.map f) page page :=
  .within .page <| (pageHeader hf).attempt.bind fun header =>
    (loop (g := BlockGroup.map f) hf fun kind => by
      split
      · exact blocksOrNone hf
      · exact refuseLine hf _ _).bind fun groups => by
        rcases header with _ | ⟨device, keyword, title, lineEnd⟩
        · exact fail _
        · exact give (Page.map f) ⟨device, keyword, title, lineEnd, groups⟩

theorem sceneLine (kind : TokenKind) :
    Exchanges f finish (Line.map f (Page.map f)) (sceneLine kind) (sceneLine kind) := by
  unfold Parse.sceneLine
  split
  · exact blankLine _
  split
  · exact contentLine (page hf)
  · exact refuseLine hf _ _

theorem scene : Exchanges f finish (Scene.map f) scene scene :=
  .within .scene <| (loop hf (sceneLine hf)).bind fun lines => by
    rw [Line.filterMap_content_map, Line.filterMap_blank_map]
    exact give (Scene.map f)
      ⟨lines.filterMap Line.content?, lines.filterMap Line.blank?, []⟩

end Renaming

end Exchanges

end Parse

namespace Parsing

/-- A parsing in other tokens. -/
def map (f : Token → Token) (finish : Range) (p : Parsing) : Parsing :=
  ⟨p.scene.map f, p.errors.map (ParseError.map f finish)⟩

/-- With other tokens that stand for the same, a parse gives and reports the
    same in these tokens. -/
theorem ofTokens_exchanged {f : Token → Token} (hf : IsRenaming f) (limit : Nat)
    (tokens : List Token) :
    ofTokens limit (tokens.map f) =
      (ofTokens limit tokens).map f (finishOf ((kept tokens).map f)) := by
  rw [ofTokens_eq, ofTokens_eq, kept_map hf]
  generalize finishOf ((kept tokens).map f) = finish
  have hscene : Parse.scene ⟨max 1 limit, finish⟩ ⟨(kept tokens).map f, [], []⟩ =
      ((Parse.scene ⟨max 1 limit, finishOf (kept tokens)⟩ ⟨kept tokens, [], []⟩).1.map
        (Scene.map f),
        (Parse.scene ⟨max 1 limit, finishOf (kept tokens)⟩ ⟨kept tokens, [], []⟩).2.map f finish) :=
    Parse.Exchanges.scene hf ⟨max 1 limit, finishOf (kept tokens)⟩ ⟨kept tokens, [], []⟩
  rw [hscene]
  rcases Parse.scene ⟨max 1 limit, finishOf (kept tokens)⟩ ⟨kept tokens, [], []⟩
    with ⟨_ | x, s⟩ <;> rfl

/-- A parse sees the kinds of tokens and the texts of numbers, and nothing else. When anything else
    about the tokens is changed, there is the same scene in the changed tokens, and for each error
    one that follows it, at the changed token. -/
theorem ofTokens_unseen {f : Token → Token} (hkind : ∀ t, (f t).kind = t.kind)
    (himage : ∀ t, t.kind = .number → (f t).image = t.image) (limit : Nat) (tokens : List Token) :
    (ofTokens limit (tokens.map f)).scene = (ofTokens limit tokens).scene.map f ∧
      List.Forall₂ (ParseError.Follows f (finishOf (kept (tokens.map f))))
        (ofTokens limit tokens).errors (ofTokens limit (tokens.map f)).errors := by
  have hf : IsRenaming f := .of_image hkind himage
  rw [ofTokens_exchanged hf, kept_map hf]
  refine ⟨rfl, List.forall₂_map_right_iff.2 (List.forall₂_same.2 fun e _ => ?_)⟩
  exact ParseError.follows_map hkind _ e

/-- Only the number keeps its text, and all tokens are moved to the start. What is wrong with the
    number is still found. -/
theorem ofTokens_unseen_blanked :
    let f : Token → Token := fun t => ⟨t.kind, if t.kind = .number then t.image else "", .origin⟩
    let place : Range := .emptyAt 3 ⟨1, 4⟩
    let tokens : List Token := [⟨.keyword .page, "Page:", place⟩, ⟨.freeText, "A", place⟩,
      ⟨.lineEnd, "\n", place⟩, ⟨.keyword .block, "Block:", place⟩, ⟨.lineEnd, "\n", place⟩,
      ⟨.number, "13", place⟩, ⟨.blanks, " ", place⟩, ⟨.keyword .rows, "rows", place⟩,
      ⟨.lineEnd, "\n", place⟩]
    (∀ t, (f t).kind = t.kind) ∧ (∀ t, t.kind = .number → (f t).image = t.image) ∧
      (ofTokens 9 tokens).errors.map ParseError.expectation = [.count] ∧
      (ofTokens 9 (tokens.map f)).scene = (ofTokens 9 tokens).scene.map f ∧
      List.Forall₂ (ParseError.Follows f (finishOf (kept (tokens.map f))))
        (ofTokens 9 tokens).errors (ofTokens 9 (tokens.map f)).errors := by
  intro f place tokens
  have hkind : ∀ t, (f t).kind = t.kind := fun _ => rfl
  have himage : ∀ t, t.kind = .number → (f t).image = t.image := fun _ ht => if_pos ht
  exact ⟨hkind, himage, by decide +kernel, ofTokens_unseen hkind himage 9 tokens⟩

end Parsing

end Wireframe
