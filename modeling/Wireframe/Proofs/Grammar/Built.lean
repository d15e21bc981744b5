import Wireframe.Grammar.Rules
import Wireframe.Proofs.Grammar.Turn

/-!
# What every parse does

All rules of the grammar are put together from the same few parses (`Built`). So what holds of these
and is kept by each way to put parses together holds of every rule, and is proved once: a parse
reads tokens off the front, it adds errors to those reported before, and it leaves the path of rules
as it was (`Parse.Built.leads`). More generally, a relation of cursors that holds for each step
holds for a whole parse (`Parse.Built.steps`).
-/

namespace Wireframe

namespace Parse

/-- Parses that are put together from the primitive ones. -/
class inductive Built : {α : Type} → Parse α → Prop
  | give {α : Type} (x : α) : Built (Parse.give x)
  | fail {α : Type} : Built (Parse.fail : Parse α)
  | peek : Built Parse.peek
  | next : Built Parse.next
  | reportAt (found : Option Token) (e : Expectation) : Built (Parse.reportAt found e)
  | report (e : Expectation) : Built (Parse.report e)
  | andThen {α β : Type} {p : Parse α} {f : α → Parse β} :
    Built p → (∀ x, Built (f x)) → Built (Parse.andThen p f)
  | attempt {α : Type} {p : Parse α} : Built p → Built (Parse.attempt p)
  | orSkipLine {α : Type} {p : Parse α} : Built p → Built (Parse.orSkipLine p)
  | within {α : Type} {p : Parse α} (rule : Rule) : Built p → Built (Parse.within rule p)
  | loop {α : Type} {body : TokenKind → Parse α} (stops : TokenKind → Bool) :
    (∀ kind, Built (body kind)) → Built (Parse.loop stops body)
  | repeatAt {α : Type} {body : Parse α} (kind : TokenKind) :
    Built body → Built (Parse.repeatAt kind body)

/-! ## Every rule is built -/

section Instances

variable {α β : Type} {p : Parse α}

instance (x : α) : Built (Parse.give x) :=
  .give x

instance : Built (Parse.fail : Parse α) :=
  .fail

instance (x : α) : Built (pure x : Parse α) :=
  .give x

instance : Built Parse.next :=
  .next

instance : Built Parse.peek :=
  .peek

instance {f : α → Parse β} [Built p] [∀ x, Built (f x)] : Built (andThen p f) :=
  .andThen inferInstance inferInstance

instance {f : α → Parse β} [Built p] [∀ x, Built (f x)] : Built (p >>= f) :=
  .andThen inferInstance inferInstance

instance {f : α → β} [Built p] : Built (f <$> p) :=
  .andThen (f := fun x => Parse.give (f x)) inferInstance fun x => .give (f x)

instance {c : Prop} [Decidable c] {q : Parse α} [Built p] [Built q] :
    Built (if c then p else q) := by
  split <;> infer_instance

instance [Built p] : Built (attempt p) :=
  .attempt inferInstance

instance [Built p] : Built (orSkipLine p) :=
  .orSkipLine inferInstance

instance (rule : Rule) [Built p] : Built (within rule p) :=
  .within rule inferInstance

instance {stops : TokenKind → Bool} {body : TokenKind → Parse α} [∀ kind, Built (body kind)] :
    Built (loop stops body) :=
  .loop stops inferInstance

instance {kind : TokenKind} [Built p] : Built (repeatAt kind p) :=
  .repeatAt kind inferInstance

instance (e : Expectation) : Built (refuse e : Parse α) :=
  .andThen (.report e) fun _ => .fail

instance (e : Expectation) : Built (refuseLine e : Parse α) := by
  unfold refuseLine
  infer_instance

instance (kind : TokenKind) (e : Expectation) : Built (expect kind e) := by
  unfold expect
  infer_instance

instance : Built (blankLine : Parse (Line α)) := by
  unfold blankLine
  infer_instance

instance [Built p] : Built (contentLine p) := by
  unfold contentLine
  infer_instance

instance (kind : TokenKind) : Built (optionalToken kind) := by
  unfold optionalToken
  infer_instance

instance : Built optionalValue := by
  unfold optionalValue
  refine .andThen .peek fun _ => ?_
  split <;> infer_instance

instance (e : Expectation) : Built (value e) :=
  .within .value <| .andThen inferInstance fun _ => by split <;> infer_instance

instance : Built optionalLiteral := by
  unfold optionalLiteral
  refine .andThen .peek fun _ => ?_
  split <;> infer_instance

instance (e : Expectation) : Built (literal e) :=
  .within .literal <| .andThen inferInstance fun _ => by split <;> infer_instance

instance : Built number :=
  .within .number <| .andThen .next fun _ => by
    split
    · infer_instance
    · exact .andThen (.reportAt _ _) fun _ => .fail

instance : Built optionalCount := by
  unfold optionalCount
  refine .andThen .peek fun _ => ?_
  split <;> infer_instance

instance : Built axis := by
  unfold axis
  refine .andThen .peek fun _ => ?_
  split <;> infer_instance

instance : Built direction := by
  unfold direction
  infer_instance

instance : Built itemContent := by
  unfold itemContent
  refine .andThen .peek fun _ => ?_
  split
  · split <;> infer_instance
  all_goals infer_instance

instance : Built item := by
  unfold item
  infer_instance

instance : Built list := by
  unfold list
  infer_instance

instance (kind : TokenKind) : Built (elementLine kind) := by
  unfold elementLine
  infer_instance

instance : Built optionalDirection := by
  unfold optionalDirection
  refine .andThen .peek fun _ => ?_
  split <;> infer_instance

instance : Built elements := by
  unfold elements
  infer_instance

instance : Built elementsOrNone :=
  .andThen inferInstance fun _ => by split <;> first | exact .fail | infer_instance

instance : Built blockHeader := by
  unfold blockHeader
  infer_instance

instance : Built block := by
  unfold block
  refine .within .block <| .andThen inferInstance fun _ => .andThen inferInstance fun _ => ?_
  split
  · infer_instance
  · exact .fail

instance : Built nextName := by
  unfold nextName
  infer_instance

instance : Built names :=
  .andThen inferInstance fun _ => by split <;> infer_instance

instance : Built alignment := by
  unfold alignment
  infer_instance

instance : Built optionalAlignment := by
  unfold optionalAlignment
  infer_instance

instance (kind : TokenKind) : Built (blockLine kind) := by
  unfold blockLine
  infer_instance

instance : Built blocks := by
  unfold blocks
  infer_instance

instance : Built blocksOrNone :=
  .andThen inferInstance fun _ => by split <;> first | exact .fail | infer_instance

instance : Built optionalDevice := by
  unfold optionalDevice
  refine .andThen .peek fun _ => ?_
  split
  · split <;> infer_instance
  · infer_instance

instance : Built pageHeader := by
  unfold pageHeader
  infer_instance

instance : Built page := by
  unfold page
  refine .within .page <| .andThen inferInstance fun _ => .andThen inferInstance fun _ => ?_
  split
  · infer_instance
  · exact .fail

instance (kind : TokenKind) : Built (sceneLine kind) := by
  unfold sceneLine
  infer_instance

instance : Built scene := by
  unfold scene
  infer_instance

end Instances

end Parse

/-! ## What every parse keeps to -/

/-- Two cursors that are related whenever one step of a parse leads from the first to the second. -/
structure Cursor.Steps (ctx : ParseContext) (R : Cursor → Cursor → Prop) : Prop where
  refl : ∀ s, R s s
  trans : ∀ {s s' s''}, R s s' → R s' s'' → R s s''
  next : ∀ {s : Cursor} {t rest}, s.rest = t :: rest → R s { s with rest := rest }
  reportAt : ∀ found e s, R s (Parse.reportAt found e ctx s).2
  skipLine : ∀ s, R s (Parse.skipLine ctx s).2
  within : ∀ {s s' : Cursor} {rule}, R { s with path := s.path ++ [rule] } s' →
    R s { s' with path := s'.path.dropLast }

namespace Parse

variable {α : Type} {ctx : ParseContext} {R : Cursor → Cursor → Prop} (hrefl : ∀ s, R s s)
  (htrans : ∀ {s s' s''}, R s s' → R s' s'' → R s s'')

include hrefl htrans

/-- What holds for each turn of a loop holds for the whole loop. -/
theorem loop_rel {stops : TokenKind → Bool} {body : TokenKind → Parse α}
    (hbody : ∀ kind s, R s (body kind ctx s).2) (s : Cursor) : R s (loop stops body ctx s).2 := by
  induction s using loop_induction stops body ctx with
  | nil s hs =>
    rw [loop_end hs]
    exact hrefl s
  | stop s t rest hs hstop =>
    rw [loop_stop hs hstop]
    exact hrefl s
  | turn s t rest hs hhalt hstops ih =>
    rw [loop_turn hs hhalt hstops]
    split
    · next hlt => exact htrans (hbody t.kind s) (ih hlt)
    · exact hbody t.kind s

/-- What holds for each turn of a repetition holds for the whole repetition. -/
theorem repeatAt_rel {kind : TokenKind} {body : Parse α} (hbody : ∀ s, R s (body ctx s).2)
    (s : Cursor) : R s (repeatAt kind body ctx s).2 := by
  induction s using repeatAt_induction kind body ctx with
  | stop s hs =>
    rw [repeatAt_stop hs]
    exact hrefl s
  | turn s hs ih =>
    have hfirst := hbody s
    rw [Parse.repeatAt, if_pos hs]
    rcases hps : body ctx s with ⟨_ | x, s'⟩ <;> rw [hps] at hfirst
    · exact hfirst
    · dsimp only
      split
      · next hlt => exact htrans hfirst (ih x s' hps hlt)
      · exact hfirst

end Parse

/-- What holds for each step holds for a whole parse. -/
theorem Parse.Built.steps {α : Type} {p : Parse α} {ctx : ParseContext} {R : Cursor → Cursor → Prop}
    (hR : Cursor.Steps ctx R) (h : Built p) (s : Cursor) : R s (p ctx s).2 := by
  -- each way to build a parse takes steps, or goes on from one to the next
  induction h generalizing s with
  | give x => exact hR.refl s
  | fail => exact hR.refl s
  | peek => exact hR.refl s
  | next =>
    rw [next.eq_def]
    split
    · exact hR.refl s
    · next hs => exact hR.next hs
  | reportAt found e => exact hR.reportAt found e s
  | report e => exact hR.reportAt s.rest.head? e s
  | @andThen α β p f _ _ hp hf =>
    have hfirst := hp s
    rw [andThen.eq_def]
    rcases hps : p ctx s with ⟨_ | x, s'⟩ <;> rw [hps] at hfirst
    · exact hfirst
    · exact hR.trans hfirst (hf x s')
  | attempt _ hp => exact hp s
  | @orSkipLine α p _ hp =>
    have hfirst := hp s
    rw [orSkipLine.eq_def]
    rcases hps : p ctx s with ⟨_ | x, s'⟩ <;> rw [hps] at hfirst
    · exact hR.trans hfirst (hR.skipLine s')
    · exact hfirst
  | within rule _ hp => exact hR.within (hp { s with path := s.path ++ [rule] })
  | loop stops _ hbody => exact loop_rel hR.refl hR.trans hbody s
  | repeatAt kind _ hbody => exact repeatAt_rel hR.refl hR.trans hbody s

/-- An error as it is reported: of a token, or else of the end of the input. -/
def ParseError.IsAt (finish : Range) (e : ParseError) : Prop :=
  e.range = (e.found.map Token.range).getD finish

/-- A cursor that a parse can leave behind when it starts from another one: further on, with more
    errors, and in the same rules. -/
def Cursor.Leads (finish : Range) (s s' : Cursor) : Prop :=
  ∃ read reported, s.rest = read ++ s'.rest ∧ s'.errors = s.errors ++ reported ∧
    (∀ e ∈ reported, e.IsAt finish) ∧ s'.path = s.path

theorem Cursor.Leads.length_le {finish : Range} {s s' : Cursor} (h : Leads finish s s') :
    s'.rest.length ≤ s.rest.length := by
  obtain ⟨read, -, hrest, -⟩ := h
  rw [hrest, List.length_append]
  exact Nat.le_add_left _ _

namespace Cursor.Leads

variable {finish : Range} {s s' s'' : Cursor}

theorem of_rest (read : List Token) (hrest : s.rest = read ++ s'.rest)
    (herrors : s'.errors = s.errors) (hpath : s'.path = s.path) : Leads finish s s' :=
  ⟨read, [], hrest, herrors.trans (List.append_nil _).symm, fun _ he => absurd he List.not_mem_nil,
    hpath⟩

theorem trans (h : Leads finish s s') (h' : Leads finish s' s'') : Leads finish s s'' := by
  obtain ⟨read, reported, hrest, herrors, hat, hpath⟩ := h
  obtain ⟨read', reported', hrest', herrors', hat', hpath'⟩ := h'
  refine ⟨read ++ read', reported ++ reported', ?_, ?_, ?_, hpath'.trans hpath⟩
  · rw [hrest, hrest', List.append_assoc]
  · rw [herrors', herrors, List.append_assoc]
  · exact List.forall_mem_append.2 ⟨hat, hat'⟩

theorem reportAt (found : Option Token) (e : Expectation) (ctx : ParseContext) (s : Cursor) :
    Leads ctx.finish s (Parse.reportAt found e ctx s).2 := by
  rw [Parse.reportAt]
  split
  · exact of_rest [] rfl rfl rfl
  · refine ⟨[], [_], rfl, rfl, fun e he => ?_, rfl⟩
    rw [List.mem_singleton.1 he]
    rfl

theorem skipLine (ctx : ParseContext) (s : Cursor) : Leads finish s (Parse.skipLine ctx s).2 := by
  refine of_rest (s.rest.takeWhile (·.kind ≠ .lineEnd) ++
    (s.rest.dropWhile (·.kind ≠ .lineEnd)).take 1) ?_ rfl rfl
  rw [Parse.skipLine, ← List.drop_one, List.append_assoc, List.take_append_drop,
    List.takeWhile_append_dropWhile]

theorem within {rule : Rule} (h : Leads finish { s with path := s.path ++ [rule] } s') :
    Leads finish s { s' with path := s'.path.dropLast } := by
  obtain ⟨read, reported, hrest, herrors, hat, hpath⟩ := h
  refine ⟨read, reported, hrest, herrors, hat, ?_⟩
  change s'.path.dropLast = s.path
  rw [hpath, List.dropLast_concat]

theorem steps (ctx : ParseContext) : Cursor.Steps ctx (Leads ctx.finish) where
  refl _ := of_rest [] rfl rfl rfl
  trans := trans
  next hs := of_rest [_] hs rfl rfl
  reportAt found e s := reportAt found e ctx s
  skipLine s := skipLine ctx s
  within := within

end Cursor.Leads

/-- A parse only goes on, adds errors, and leaves the path as it was. -/
theorem Parse.Built.leads {α : Type} {p : Parse α} (h : Built p) (ctx : ParseContext) (s : Cursor) :
    s.Leads ctx.finish (p ctx s).2 :=
  h.steps (Cursor.Leads.steps ctx) s

end Wireframe
