import Wireframe.Proofs.Grammar.Acceptance
import Wireframe.Proofs.Grammar.Built

/-!
# The path of rules

While a rule is parsed it stands on the path of the cursor, below the rule that it is a part of.
Every error keeps the path that it was reported on.

* `Parse.IsRule.isBalanced`: a rule leaves the path as it finds it, whatever it comes to. It is
  entered, its body leaves whatever it enters, and then the rule is left.
* `Parse.steppedCount_eq`: a number is left only after its token was read. But it is never
  parsed where there is none.
* `Cursor.Inside`: what is reported inside of a rule is reported of the rule itself, or of a part of
  it. Each step of a parse keeps to this (`Parse.Stays`), and a part may be parsed where the
  production of the rule mentions it (`Rule.Mentions`).
* `Parsing.ofTokens_paths`: so the path of every error is one of the grammar, from the scene on.
-/

namespace Wireframe

namespace Rule

/-- The rules that the production of a rule mentions and that can miss something there. A literal
    that is an item cannot, nor can a value that may be left out. -/
def parts : Rule → List Rule
  | scene => [page]
  | page => [value, blocks]
  | blocks => [alignment, block]
  | alignment => [literal, direction]
  | block => [elements]
  | elements => [direction, item, list]
  | direction => [number]
  | list => [item]
  | item | value | literal | number | comment => []

/-- Whether a rule is a part of another one. -/
def Mentions (rule part : Rule) : Prop :=
  part ∈ rule.parts

instance (rule part : Rule) : Decidable (rule.Mentions part) :=
  inferInstanceAs (Decidable (part ∈ rule.parts))

end Rule

/-! ## Entering and leaving rules -/

namespace Parse

variable {α β : Type} {rule part : Rule} {ctx : ParseContext} {s : Cursor}

/-- The rules of the grammar. -/
inductive IsRule : {α : Type} → Rule → Parse α → Prop
  | scene : IsRule .scene Parse.scene
  | page : IsRule .page Parse.page
  | blocks : IsRule .blocks Parse.blocks
  | alignment : IsRule .alignment Parse.alignment
  | block : IsRule .block Parse.block
  | elements : IsRule .elements Parse.elements
  | direction : IsRule .direction Parse.direction
  | item : IsRule .item Parse.item
  | list : IsRule .list Parse.list
  | value (e : Expectation) : IsRule .value (Parse.value e)
  | literal (e : Expectation) : IsRule .literal (Parse.literal e)
  | number : IsRule .number Parse.number

/-- Puts a rule on the path. -/
def enter (rule : Rule) : Parse Unit := fun _ s =>
  (some (), { s with path := s.path ++ [rule] })

/-- Takes the last rule off the path. -/
def leave : Parse Unit := fun _ s =>
  (some (), { s with path := s.path.dropLast })

/-- A parse within a rule, step by step: the rule is entered, and it is left whether
    there is an answer or not. -/
def stepped (rule : Rule) (body : Parse α) : Parse α := do
  enter rule
  let x ← attempt body
  leave
  match x with
  | some x => give x
  | none => fail

theorem within_eq (rule : Rule) (body : Parse α) : within rule body = stepped rule body := by
  funext ctx s
  simp only [stepped, bind_eq, andThen, enter, attempt, leave, within]
  rcases body ctx { s with path := s.path ++ [rule] } with ⟨_ | x, s'⟩ <;> rfl

theorem Built.path_eq {p : Parse α} (h : Built p) (ctx : ParseContext) (s : Cursor) :
    (p ctx s).2.path = s.path := by
  obtain ⟨-, -, -, -, -, hpath⟩ := h.leads ctx s
  exact hpath

/-- A rule that is entered and left, around a body that has left whatever it entered. -/
structure IsBalanced (rule : Rule) (p : Parse α) : Prop where
  path_eq : ∀ ctx s, (p ctx s).2.path = s.path
  exists_body : ∃ body, p = stepped rule body ∧ ∀ ctx s, (body ctx s).2.path = s.path

theorem Built.isBalanced {body : Parse α} (h : Built body) (rule : Rule) :
    IsBalanced rule (Parse.within rule body) :=
  ⟨(Built.within rule h).path_eq, body, within_eq rule body, h.path_eq⟩

theorem IsRule.isBalanced {p : Parse α} (h : IsRule rule p) : IsBalanced rule p := by
  cases h with
  | page | block =>
    refine Built.isBalanced (.andThen inferInstance fun _ => .andThen inferInstance fun _ => ?_) _
    split
    · infer_instance
    · exact .fail
  | value e | literal e =>
    exact Built.isBalanced (.andThen inferInstance fun _ => by split <;> infer_instance) _
  | number =>
    refine Built.isBalanced (.andThen .next fun _ => ?_) _
    split
    · infer_instance
    · exact .andThen (.reportAt _ _) fun _ => .fail
  | scene | blocks | alignment | elements | direction | item | list =>
    exact Built.isBalanced inferInstance _

/-- A number that is entered and left step by step. If there is no token it is not left. -/
def steppedNumber : Parse Count := do
  enter .number
  let token ← next
  match token.count? with
  | some value =>
    leave
    return ⟨token, value⟩
  | none =>
    reportAt (some token) .count
    leave
    fail

/-- The count of a direction, of which the number is entered and left step by step. -/
def steppedCount : Parse (Option Count) := do
  match ← peek with
  | some kind => if kind.startsNumber then attempt steppedNumber else return none
  | none => return none

theorem steppedNumber_cons {t : Token} {rest : List Token} (hs : s.rest = t :: rest) :
    steppedNumber ctx s = number ctx s := by
  obtain ⟨tokens, path, errors⟩ := s
  obtain rfl : tokens = t :: rest := hs
  rw [steppedNumber, number, within]
  simp only [bind_eq, andThen, enter, next]
  cases t.count? with
  | none =>
    obtain ⟨es, hes, -⟩ := reportAt_eq (some t) .count ctx ⟨rest, path ++ [.number], errors⟩
    simp only [andThen, hes]
    rfl
  | some value => rfl

/-- A number is only parsed where there is a token, so it is always left. -/
theorem steppedCount_eq : steppedCount = optionalCount := by
  funext ctx s
  rw [steppedCount, optionalCount, bind_eq, bind_eq, peek_andThen, peek_andThen]
  cases hs : s.rest with
  | nil => rfl
  | cons t rest =>
    simp only [List.head?_cons, Option.map_some]
    split
    · rw [attempt, attempt, steppedNumber_cons hs]
    · rfl

end Parse

/-! ## Errors inside of a rule -/

namespace Cursor

/-- What a parse inside of a rule leaves behind: the path as it was, and errors that were reported
    of the rule or, going down, of parts of parts of it. -/
def Inside (rule : Rule) (s s' : Cursor) : Prop :=
  s'.path = s.path ∧ ∃ reported, s'.errors = s.errors ++ reported ∧
    ∀ e ∈ reported, ∃ below, e.path = s.path ++ below ∧ (rule :: below).IsChain Rule.Mentions

namespace Inside

variable {rule part : Rule} {s s' s'' : Cursor}

theorem of_eq (hpath : s'.path = s.path) (herrors : s'.errors = s.errors) : Inside rule s s' :=
  ⟨hpath, [], by rw [herrors, List.append_nil], fun _ he => absurd he List.not_mem_nil⟩

theorem refl (s : Cursor) : Inside rule s s :=
  of_eq rfl rfl

theorem trans (h : Inside rule s s') (h' : Inside rule s' s'') : Inside rule s s'' := by
  obtain ⟨hpath, reported, herrors, hbelow⟩ := h
  obtain ⟨hpath', reported', herrors', hbelow'⟩ := h'
  rw [hpath] at hpath' hbelow'
  exact ⟨hpath', reported ++ reported', by rw [herrors', herrors, List.append_assoc],
    List.forall_mem_append.2 ⟨hbelow, hbelow'⟩⟩

theorem reportAt (found : Option Token) (e : Expectation) (ctx : ParseContext) (s : Cursor) :
    Inside rule s (Parse.reportAt found e ctx s).2 := by
  rw [Parse.reportAt]
  split
  · exact refl s
  · refine ⟨rfl, [_], rfl, fun e he => ⟨[], ?_, List.IsChain.singleton _⟩⟩
    rw [List.mem_singleton.1 he, List.append_nil]

/-- What is reported inside of a part has the part on its path, right below the rule. -/
theorem within (hpart : rule.Mentions part)
    (h : Inside part { s with path := s.path ++ [part] } s') :
    Inside rule s { s' with path := s'.path.dropLast } := by
  obtain ⟨hpath, reported, herrors, hbelow⟩ := h
  refine ⟨?_, reported, herrors, fun e he => ?_⟩
  · change s'.path.dropLast = s.path
    rw [hpath, List.dropLast_concat]
  · obtain ⟨below, hepath, hchain⟩ := hbelow e he
    -- what is below the part is below the rule, with the part in between
    refine ⟨part :: below, ?_, hchain.cons_cons hpart⟩
    rw [hepath, List.append_assoc]
    rfl

end Inside

end Cursor

namespace Parse

open Cursor

/-- A parse that stays inside of a rule, from every cursor. -/
class Stays {α : Type} (rule : Rule) (p : Parse α) : Prop where
  inside : ∀ ctx s, Inside rule s (p ctx s).2

section Instances

variable {α β : Type} {rule part : Rule} {p : Parse α}

/-! ### Ways to put parses together -/

instance (x : α) : Stays rule (give x) :=
  ⟨fun _ s => .refl s⟩

instance (x : α) : Stays rule (pure x : Parse α) :=
  ⟨fun _ s => .refl s⟩

instance : Stays rule (fail : Parse α) :=
  ⟨fun _ s => .refl s⟩

instance : Stays rule peek :=
  ⟨fun _ s => .refl s⟩

instance : Stays rule next where
  inside ctx s := by
    rw [next.eq_def]
    split
    · exact .refl s
    · exact .of_eq rfl rfl

instance (found : Option Token) (e : Expectation) : Stays rule (reportAt found e) :=
  ⟨Inside.reportAt found e⟩

instance (e : Expectation) : Stays rule (report e) :=
  ⟨fun ctx s => .reportAt s.rest.head? e ctx s⟩

theorem Stays.andThen {f : α → Parse β} (hp : Stays rule p) (hf : ∀ x, Stays rule (f x)) :
    Stays rule (andThen p f) where
  inside ctx s := by
    have hfirst := hp.inside ctx s
    rw [andThen.eq_def]
    rcases hps : p ctx s with ⟨_ | x, s'⟩ <;> rw [hps] at hfirst
    · exact hfirst
    · exact hfirst.trans ((hf x).inside ctx s')

instance {f : α → Parse β} [Stays rule p] [∀ x, Stays rule (f x)] : Stays rule (p >>= f) :=
  .andThen inferInstance inferInstance

instance {f : α → β} [Stays rule p] : Stays rule (f <$> p) :=
  Stays.andThen (f := fun x => give (f x)) inferInstance fun _ => inferInstance

instance {c : Prop} [Decidable c] {q : Parse α} [Stays rule p] [Stays rule q] :
    Stays rule (if c then p else q) := by
  split <;> infer_instance

instance [h : Stays rule p] : Stays rule (attempt p) :=
  ⟨h.inside⟩

instance [h : Stays rule p] : Stays rule (orSkipLine p) where
  inside ctx s := by
    have hfirst := h.inside ctx s
    rw [orSkipLine.eq_def]
    rcases hps : p ctx s with ⟨_ | x, s'⟩ <;> rw [hps] at hfirst
    · exact hfirst.trans (.of_eq rfl rfl)
    · exact hfirst

instance {stops : TokenKind → Bool} {body : TokenKind → Parse α}
    [h : ∀ kind, Stays rule (body kind)] : Stays rule (loop stops body) :=
  ⟨fun ctx => loop_rel Inside.refl Inside.trans fun kind => (h kind).inside ctx⟩

instance {kind : TokenKind} [h : Stays rule p] : Stays rule (repeatAt kind p) :=
  ⟨fun ctx => repeatAt_rel Inside.refl Inside.trans (h.inside ctx)⟩

/-- A part of a rule is parsed inside of the rule. -/
theorem Stays.within (hpart : rule.Mentions part) (h : Stays part p) :
    Stays rule (within part p) :=
  ⟨fun ctx s => .within hpart (h.inside ctx { s with path := s.path ++ [part] })⟩

/-! ### Parses that are a part of no rule in particular -/

instance (e : Expectation) : Stays rule (refuse e : Parse α) :=
  .andThen inferInstance fun _ => inferInstance

instance (e : Expectation) : Stays rule (refuseLine e : Parse α) := by
  unfold refuseLine
  infer_instance

instance (kind : TokenKind) (e : Expectation) : Stays rule (expect kind e) := by
  unfold expect
  infer_instance

instance : Stays rule (blankLine : Parse (Line α)) := by
  unfold blankLine
  infer_instance

instance [Stays rule p] : Stays rule (contentLine p) := by
  unfold contentLine
  infer_instance

instance (kind : TokenKind) : Stays rule (optionalToken kind) := by
  unfold optionalToken
  infer_instance

instance : Stays rule optionalValue := by
  unfold optionalValue
  refine .andThen inferInstance fun _ => ?_
  split <;> infer_instance

instance : Stays rule optionalLiteral := by
  unfold optionalLiteral
  refine .andThen inferInstance fun _ => ?_
  split <;> infer_instance

/-! ### Parts of lines -/

instance (e : Expectation) : Stays .page (value e) :=
  .within (by decide) <| .andThen inferInstance fun _ => by split <;> infer_instance

instance (e : Expectation) : Stays .alignment (literal e) :=
  .within (by decide) <| .andThen inferInstance fun _ => by split <;> infer_instance

instance : Stays .direction number :=
  .within (by decide) <| .andThen inferInstance fun _ => by split <;> infer_instance

instance : Stays .direction optionalCount := by
  unfold optionalCount
  refine .andThen inferInstance fun _ => ?_
  split <;> infer_instance

instance : Stays .direction axis := by
  unfold axis
  refine .andThen inferInstance fun _ => ?_
  split <;> infer_instance

theorem stays_direction (hpart : rule.Mentions .direction) : Stays rule direction := by
  unfold direction
  exact .within hpart inferInstance

/-- Where a literal begins there is one, and nothing is reported. -/
theorem exists_literal_eq {s : Cursor} (hs : s.rest.head?.any (·.kind.startsLiteral))
    (e : Expectation) (ctx : ParseContext) :
    ∃ l rest, literal e ctx s = (some l, { s with rest := rest }) := by
  obtain ⟨_ | ⟨t, rest⟩, path, errors⟩ := s
  · cases hs
  · have hleft : ∀ l : Literal, (some l, Cursor.mk rest (path ++ [Rule.literal]).dropLast errors) =
        (some l, ⟨rest, path, errors⟩) := fun l => by rw [List.dropLast_concat]
    obtain ⟨kind, image, range⟩ := t
    cases kind with
    | quotation => exact ⟨_, rest, hleft (.quotation _)⟩
    | placeholder => exact ⟨_, rest, hleft (.placeholder _)⟩
    | _ => cases hs

/-- An item is no literal without the token of one, so that no literal is
    ever missed inside of it. -/
instance : Stays .item itemContent where
  inside ctx s := by
    rcases itemContent_cases ctx s with ⟨w, -, h⟩ | ⟨hs, h⟩ | h <;> rw [h]
    · have hwidget : Stays .item (andThen next fun keyword => andThen optionalValue fun value =>
          give (ItemContent.widget w keyword value)) :=
        .andThen inferInstance fun _ => .andThen inferInstance inferInstance
      exact hwidget.inside ctx s
    · obtain ⟨l, rest, hl⟩ := exists_literal_eq hs .item ctx
      rw [andThen_some hl]
      exact .of_eq rfl rfl
    · exact Stays.inside ctx s

theorem stays_item (hpart : rule.Mentions .item) : Stays rule item := by
  unfold item
  exact .within hpart inferInstance

/-! ### Lines and groups -/

instance : Stays .elements list :=
  have : Stays .list item := stays_item (by decide)
  .within (by decide) inferInstance

instance (kind : TokenKind) : Stays .elements (elementLine kind) := by
  have : Stays .elements item := stays_item (by decide)
  unfold elementLine
  infer_instance

instance : Stays .elements optionalDirection := by
  have : Stays .elements direction := stays_direction (by decide)
  unfold optionalDirection
  refine .andThen inferInstance fun _ => ?_
  split <;> infer_instance

instance : Stays .block elements := by
  unfold elements
  exact .within (by decide) inferInstance

instance : Stays .block elementsOrNone :=
  .andThen inferInstance fun _ => by split <;> infer_instance

instance : Stays .block blockHeader := by
  unfold blockHeader
  infer_instance

instance : Stays .blocks block := by
  unfold block
  refine .within (by decide) <| .andThen inferInstance fun _ => .andThen inferInstance fun _ => ?_
  split <;> infer_instance

instance : Stays .alignment nextName := by
  unfold nextName
  infer_instance

instance : Stays .alignment names :=
  .andThen inferInstance fun _ => by split <;> infer_instance

instance : Stays .blocks alignment := by
  have : Stays .alignment direction := stays_direction (by decide)
  unfold alignment
  exact .within (by decide) inferInstance

instance : Stays .blocks optionalAlignment := by
  unfold optionalAlignment
  infer_instance

instance (kind : TokenKind) : Stays .blocks (blockLine kind) := by
  unfold blockLine
  infer_instance

instance : Stays .page blocks := by
  unfold blocks
  exact .within (by decide) inferInstance

instance : Stays .page blocksOrNone :=
  .andThen inferInstance fun _ => by split <;> infer_instance

instance : Stays .page optionalDevice := by
  unfold optionalDevice
  refine .andThen inferInstance fun _ => ?_
  split
  · split <;> infer_instance
  · infer_instance

instance : Stays .page pageHeader := by
  unfold pageHeader
  infer_instance

instance : Stays .scene page := by
  unfold page
  refine .within (by decide) <| .andThen inferInstance fun _ => .andThen inferInstance fun _ => ?_
  split <;> infer_instance

instance (kind : TokenKind) : Stays .scene (sceneLine kind) := by
  unfold sceneLine
  infer_instance

end Instances

/-- An error in a scene has a path that begins with the scene and goes down from there. -/
theorem exists_path_scene {ctx : ParseContext} {s : Cursor} (hs : s.errors = []) {e : ParseError}
    (he : e ∈ (scene ctx s).2.errors) :
    ∃ below, e.path = s.path ++ .scene :: below ∧ (.scene :: below).IsChain Rule.Mentions := by
  have hbody : Stays .scene (do
      let lines ← loop (fun _ => false) sceneLine
      return (⟨lines.filterMap Line.content?, lines.filterMap Line.blank?, []⟩ : Scene)) :=
    inferInstance
  obtain ⟨-, reported, herrors, hbelow⟩ := hbody.inside ctx { s with path := s.path ++ [.scene] }
  have hmem : e ∈ reported := by
    change (scene ctx s).2.errors = s.errors ++ reported at herrors
    rwa [herrors, hs, List.nil_append] at he
  obtain ⟨below, hpath, hchain⟩ := hbelow e hmem
  exact ⟨below, by rw [hpath, List.append_assoc]; rfl, hchain⟩

end Parse

namespace Parsing

/-- Every rule leaves the path as it finds it, with an answer or without one, and whether the
    limit on errors is reached or not; also a number, of which the last step is not made where
    there is no token. And the path of every error begins with the scene and goes from each
    rule to a part of it. -/
theorem ofTokens_paths (limit : Nat) (tokens : List Token) :
    (∀ {α : Type} (rule : Rule) (p : Parse α), Parse.IsRule rule p → Parse.IsBalanced rule p) ∧
      Parse.steppedCount = Parse.optionalCount ∧
      ∀ e ∈ (ofTokens limit tokens).errors,
        e.path.head? = some .scene ∧ e.path.IsChain Rule.Mentions := by
  refine ⟨fun _ _ h => h.isBalanced, Parse.steppedCount_eq, fun e he => ?_⟩
  rw [ofTokens_eq] at he
  obtain ⟨below, hpath, hchain⟩ := Parse.exists_path_scene rfl he
  rw [hpath, List.nil_append]
  exact ⟨rfl, hchain⟩

/-- The longest path there is: a number that is no count, in a direction, in a block. -/
theorem ofTokens_paths_number :
    let tokens : List Token := [⟨.keyword .page, "Page:", .origin⟩, ⟨.freeText, "A", .origin⟩,
      ⟨.lineEnd, "\n", .origin⟩, ⟨.keyword .block, "Block:", .origin⟩, ⟨.lineEnd, "\n", .origin⟩,
      ⟨.number, "13", .origin⟩, ⟨.keyword .rows, "rows", .origin⟩, ⟨.lineEnd, "\n", .origin⟩]
    let e : ParseError := ⟨.count, some ⟨.number, "13", .origin⟩, .origin,
      [.scene, .page, .blocks, .block, .elements, .direction, .number]⟩
    Parse.IsRule .number Parse.number ∧
      (Parse.number ⟨1, .origin⟩ ⟨tokens, [.direction], [e]⟩).2.path = [.direction] ∧
      e ∈ (ofTokens 1 tokens).errors ∧ e.path.head? = some .scene ∧
      e.path.IsChain Rule.Mentions := by
  intro tokens e
  have he : e ∈ (ofTokens 1 tokens).errors := by decide +kernel
  obtain ⟨hrule, -, hpaths⟩ := ofTokens_paths 1 tokens
  exact ⟨.number, (hrule .number Parse.number .number).path_eq _ _, he, hpaths e he⟩

end Parsing

end Wireframe
