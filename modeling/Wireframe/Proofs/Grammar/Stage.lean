import Wireframe.Proofs.Grammar.Replay

/-!
# How far a scene has come

What can come next in a scene depends on little of what came before: on the line that was begun, and
on whether lines have been in a page and in a block (`Stage`). `Stage.after?` says what each kind of
token does; a sentence of the grammar is what leads from the first line to the beginning of a line.

From every stage a scene can be ended (`Stage.exists_run?_line`): there are no dead ends.
-/

namespace Wireframe

/-- How far a scene has come. -/
inductive Stage
  /-- At the beginning of a line. -/
  | line (place : Place)
  /-- After the device of a page. -/
  | device
  | pageKeyword
  /-- After the keyword of a block or of a widget, which can have a value. -/
  | keyword
  /-- Where only the line end is missing; the lines after it belong to `place`. -/
  | ended (place : Place)
  | blocksKeyword
  /-- After a name of an alignment. -/
  | name
  | comma
  | aligned
  /-- After the count of a direction. -/
  | counted (place : Place)
  | listKeyword
  | listTitle
  /-- After the line end in the header of a list. -/
  | listBreak
  deriving DecidableEq

namespace TokenKind

/-- Whether a kind is the keyword for an axis. -/
def isAxis (kind : TokenKind) : Bool :=
  kind = .keyword .rows || kind = .keyword .columns

end TokenKind

namespace Token

/-- Whether a token can be used as what its kind tells: a number must be a count. -/
def isUsable (t : Token) : Bool :=
  t.kind ≠ .number || t.count?.isSome

end Token

namespace Stage

/-- What a direction begins with. -/
def direction? (place : Place) (kind : TokenKind) : Option Stage :=
  if kind.isAxis then some (ended place)
  else if kind.startsNumber then some (counted place)
  else none

/-- What a line in a block begins with. -/
def element? (kind : TokenKind) : Option Stage :=
  if kind = .keyword .list then some listKeyword
  else if kind.startsLiteral then some (ended .block)
  else if kind.startsItem then some keyword
  else direction? .block kind

/-- What a line in a page begins with. -/
def blockLine? (kind : TokenKind) : Option Stage :=
  if kind = .keyword .block then some keyword
  else if kind = .keyword .blocks then some blocksKeyword
  else none

/-- What any line begins with. -/
def sceneLine? (place : Place) (kind : TokenKind) : Option Stage :=
  if kind = .lineEnd then some (line place)
  else if kind = .keyword .page then some pageKeyword
  else if kind.startsPage then some device
  else none

/-- How far a scene has come with one more token of a kind. -/
def after? : Stage → TokenKind → Option Stage
  | line .outside, kind => sceneLine? .outside kind
  | line .page, kind => (sceneLine? .page kind).or (blockLine? kind)
  | line .block, kind => ((sceneLine? .block kind).or (blockLine? kind)).or (element? kind)
  | device, kind => if kind = .keyword .page then some pageKeyword else none
  | pageKeyword, kind => if kind.startsValue then some (ended .page) else none
  | keyword, kind =>
    if kind.startsValue then some (ended .block)
    else if kind = .lineEnd then some (line .block)
    else none
  | ended place, kind => if kind = .lineEnd then some (line place) else none
  | blocksKeyword, kind =>
    if kind.startsLiteral then some name
    else if kind = .keyword .aligned then some aligned
    else none
  | name, kind =>
    if kind = .comma then some comma
    else if kind = .keyword .aligned then some aligned
    else none
  | comma, kind => if kind.startsLiteral then some name else none
  | aligned, kind => direction? .page kind
  | counted place, kind => if kind.isAxis then some (ended place) else none
  | listKeyword, kind =>
    if kind.startsValue then some listTitle
    else if kind = .lineEnd then some listBreak
    else if kind = .keyword .consistsOf then some (ended .block)
    else none
  | listTitle, kind =>
    if kind = .lineEnd then some listBreak
    else if kind = .keyword .consistsOf then some (ended .block)
    else none
  | listBreak, kind => if kind = .keyword .consistsOf then some (ended .block) else none

/-- How far a scene has come with one more token. -/
def step? (σ : Stage) (t : Token) : Option Stage :=
  if t.isUsable then σ.after? t.kind else none

/-- How far a scene has come with some more tokens. -/
def run? (σ : Stage) (tokens : List Token) : Option Stage :=
  tokens.foldlM step? σ

@[simp] theorem run?_nil (σ : Stage) : σ.run? [] = some σ := rfl

theorem run?_cons (σ : Stage) (t : Token) (tokens : List Token) :
    σ.run? (t :: tokens) = (σ.step? t).bind (·.run? tokens) :=
  List.foldlM_cons ..

theorem run?_append (σ : Stage) (tokens more : List Token) :
    σ.run? (tokens ++ more) = (σ.run? tokens).bind (·.run? more) :=
  List.foldlM_append ..

theorem run?_eq_some_cons {σ τ : Stage} {t : Token} (h : σ.step? t = some τ) (tokens : List Token) :
    σ.run? (t :: tokens) = τ.run? tokens := by
  rw [run?_cons, h]
  rfl

theorem step?_of_kind {σ : Stage} {t : Token} (h : t.kind ≠ .number) :
    σ.step? t = σ.after? t.kind := by
  rw [step?, Token.isUsable, decide_eq_true h]
  rfl

/-! ## Ending a scene -/

/-- Kinds of tokens that end a scene which has come to a stage. -/
def ending : Stage → List TokenKind
  | line _ => []
  | ended _ => [.lineEnd]
  | device => [.keyword .page, .freeText, .lineEnd]
  | pageKeyword => [.freeText, .lineEnd]
  | keyword => [.lineEnd]
  | blocksKeyword | name => [.keyword .aligned, .keyword .rows, .lineEnd]
  | comma => [.quotation, .keyword .aligned, .keyword .rows, .lineEnd]
  | aligned | counted _ => [.keyword .rows, .lineEnd]
  | listKeyword | listTitle | listBreak => [.keyword .consistsOf, .lineEnd]

/-- From every stage a scene can be ended. -/
theorem exists_run?_line (σ : Stage) : ∃ more : List Token, (∀ t ∈ more, t.kind.isSkipped = false) ∧
    ∃ place, σ.run? more = some (line place) := by
  refine ⟨σ.ending.map fun kind => ⟨kind, "", .origin⟩, ?_⟩
  rw [List.forall_mem_map]
  cases σ with
  | line place => exact ⟨nofun, place, rfl⟩
  | ended place => exact ⟨by rw [ending]; decide, place, rfl⟩
  | counted place => exact ⟨by rw [ending]; decide, place, rfl⟩
  | _ => exact ⟨by decide, _, rfl⟩

end Stage

end Wireframe
