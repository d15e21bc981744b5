import Mathlib.Data.List.Chain
import Wireframe.Proofs.Row

/-!
# The lines of rows

A row takes one line of the source, or two, each of words and a line end (`Row.lines`): its leaves
are those of its lines (`Row.leaves_eq_lines`). The words of a well-formed row are of the kinds that
can be printed, a number only as a count, and there is no line end among them
(`Row.IsWellFormed.lines`). So a row is on one line, but for the words that tell what a list
consists of (`Row.IsWellFormed.onOneLine`).
-/

namespace Wireframe

/-! ## The lines of rows -/

/-- Words, and the line end after them. -/
structure WordLine where
  words : List Token
  lineEnd : Token

namespace Direction

/-- The words of a direction. -/
def words (d : Direction) : List Token :=
  d.count.toList.map Count.token ++ [d.keyword]

end Direction

namespace Alignment

/-- The words of an alignment. -/
def words (a : Alignment) : List Token :=
  a.keyword :: separated (a.names.map Literal.token) a.commas ++ a.aligned :: a.direction.words

end Alignment

namespace Row

/-- The lines that a row takes. -/
def lines : Row → List WordLine
  | blank e => [⟨[], e⟩]
  | page d k t e => [⟨d.toList.map DeviceTag.token ++ [k, t.token], e⟩]
  | alignment a => [⟨a.words, a.direction.lineEnd⟩]
  | block k t e => [⟨k :: t.toList.map Value.token, e⟩]
  | direction d => [⟨d.words, d.lineEnd⟩]
  | list k t (some h) c e => [⟨k :: t.toList.map Value.token, h⟩, ⟨[c], e⟩]
  | list k t none c e => [⟨k :: t.toList.map Value.token ++ [c], e⟩]
  | item i => [⟨Item.contentLeaves i.content, i.lineEnd⟩]

/-- The words of a row. -/
def words (r : Row) : List Token :=
  r.lines.flatMap WordLine.words

theorem leaves_eq_lines (r : Row) : r.leaves = r.lines.flatMap fun l => l.words ++ [l.lineEnd] := by
  cases r with
  | list k t h c e => cases h <;> simp [leaves, lines]
  | _ => simp [leaves, lines, Alignment.written, Alignment.words, Direction.leaves, Direction.words,
      Item.leaves]

end Row

/-! ## The kinds of words -/

namespace TokenKind

/-- Whether tokens of a kind can stand in a row, before its line end. -/
def isPrinted : TokenKind → Bool
  | keyword _ | numeral _ | number | freeText | quotation | placeholder | comma => true
  | _ => false

end TokenKind

namespace Token

/-- A token that can stand in a row: if it is a number, it can be used as a count. -/
structure IsPrinted (t : Token) : Prop where
  kind : t.kind.isPrinted
  number : t.kind = .number → t.count?.isSome

theorem IsPrinted.ne_lineEnd {t : Token} (h : t.IsPrinted) : t.kind ≠ .lineEnd := by
  intro hkind
  have := h.kind
  rw [hkind] at this
  cases this

theorem isPrinted_of_ne {t : Token} (h : t.kind.isPrinted) (hne : t.kind ≠ .number) : t.IsPrinted :=
  ⟨h, fun hkind => absurd hkind hne⟩

theorem isPrinted_keyword {t : Token} {k : Keyword} (h : t.kind = .keyword k) : t.IsPrinted :=
  isPrinted_of_ne (by rw [h]; rfl) (by rw [h]; exact nofun)

end Token

theorem Value.IsWellFormed.isPrinted {v : Value} (h : v.IsWellFormed) : v.token.IsPrinted := by
  have hkind : v.token.kind = v.kind := h
  refine Token.isPrinted_of_ne ?_ ?_ <;> rw [hkind] <;> cases v <;> first | rfl | exact nofun

theorem Literal.IsWellFormed.isPrinted {l : Literal} (h : l.IsWellFormed) : l.token.IsPrinted := by
  have hkind : l.token.kind = l.kind := h
  refine Token.isPrinted_of_ne ?_ ?_ <;> rw [hkind] <;> cases l <;> first | rfl | exact nofun

/-- A count is a number or a numeral. -/
theorem Count.IsWellFormed.kind {c : Count} (h : c.IsWellFormed) :
    c.token.count?.isSome ∧ (c.token.kind = .number ∨ ∃ n, c.token.kind = .numeral n) := by
  have hcount : c.token.count? = some c.value := h
  refine ⟨by rw [hcount]; rfl, ?_⟩
  rw [Token.count?.eq_def] at hcount
  split at hcount
  · next n hkind => exact .inr ⟨n, hkind⟩
  · next hkind => exact .inl hkind
  · cases hcount

theorem Count.IsWellFormed.isPrinted {c : Count} (h : c.IsWellFormed) : c.token.IsPrinted := by
  obtain ⟨hcount, hkind⟩ := h.kind
  refine ⟨?_, fun _ => hcount⟩
  rcases hkind with hkind | ⟨n, hkind⟩ <;> rw [hkind] <;> rfl

theorem Value.isPrinted_title {title : Option Value} (h : ∀ v ∈ title, v.IsWellFormed) :
    ∀ t ∈ title.toList.map Value.token, t.IsPrinted :=
  List.forall_mem_map.2 fun v hv => (h v (Option.mem_toList.1 hv)).isPrinted

theorem Direction.IsWellFormed.isPrinted {d : Direction} (h : d.IsWellFormed) :
    ∀ t ∈ d.words, t.IsPrinted :=
  List.forall_mem_append.2
    ⟨List.forall_mem_map.2 fun c hc => (h.count c (Option.mem_toList.1 hc)).isPrinted,
      List.forall_mem_singleton.2 (Token.isPrinted_keyword h.keyword)⟩

theorem Alignment.IsWellFormed.isPrinted {a : Alignment} (h : a.IsWellFormed) :
    ∀ t ∈ a.words, t.IsPrinted := by
  refine List.forall_mem_append.2 ⟨List.forall_mem_cons.2 ⟨Token.isPrinted_keyword h.keyword, ?_⟩,
    List.forall_mem_cons.2 ⟨Token.isPrinted_keyword h.aligned, h.direction.isPrinted⟩⟩
  intro t ht
  rcases List.mem_append.1 ((separated_perm _ _).subset ht) with ht | ht
  · obtain ⟨l, hl, rfl⟩ := List.mem_map.1 ht
    exact (h.names l hl).isPrinted
  · refine Token.isPrinted_of_ne ?_ ?_ <;> rw [h.commas t ht]
    · rfl
    · exact nofun

/-- In the lines of a well-formed row there are words, and a line end comes last. -/
theorem Row.IsWellFormed.lines {r : Row} (h : r.IsWellFormed) :
    ∀ l ∈ r.lines, (∀ t ∈ l.words, t.IsPrinted) ∧ l.lineEnd.kind = .lineEnd := by
  have hone {words : List Token} {e : Token} (hwords : ∀ t ∈ words, t.IsPrinted)
      (he : e.kind = .lineEnd) : ∀ l ∈ [(⟨words, e⟩ : WordLine)],
        (∀ t ∈ l.words, t.IsPrinted) ∧ l.lineEnd.kind = .lineEnd :=
    List.forall_mem_singleton.2 ⟨hwords, he⟩
  cases r with
  | blank e => exact hone (fun _ h => absurd h List.not_mem_nil) h
  | page d k t e =>
    obtain ⟨hdevice, hkeyword, htitle, hend⟩ := h
    refine hone (List.forall_mem_append.2 ⟨List.forall_mem_map.2 fun d hd => ?_, ?_⟩) hend
    · exact Token.isPrinted_keyword (hdevice d (Option.mem_toList.1 hd))
    · exact List.forall_mem_cons.2
        ⟨Token.isPrinted_keyword hkeyword, List.forall_mem_singleton.2 htitle.isPrinted⟩
  | alignment a => exact hone (Alignment.IsWellFormed.isPrinted h) h.direction.lineEnd
  | block k t e =>
    obtain ⟨hkeyword, htitle, hend⟩ := h
    exact hone (List.forall_mem_cons.2 ⟨Token.isPrinted_keyword hkeyword,
      Value.isPrinted_title htitle⟩) hend
  | direction d => exact hone (Direction.IsWellFormed.isPrinted h) h.lineEnd
  | list k t b c e =>
    obtain ⟨hkeyword, htitle, hheader, hconsists, hend⟩ := h
    have hparts := List.forall_mem_cons.2
      ⟨Token.isPrinted_keyword hkeyword, Value.isPrinted_title htitle⟩
    have hlast := List.forall_mem_singleton.2 (Token.isPrinted_keyword hconsists)
    cases b with
    | none => exact hone (List.forall_mem_append.2 ⟨hparts, hlast⟩) hend
    | some b =>
      exact List.forall_mem_cons.2 ⟨⟨hparts, hheader b rfl⟩, hone hlast hend⟩
  | item i =>
    refine hone ?_ h.lineEnd
    obtain ⟨content, e⟩ := i
    cases content with
    | widget kind k v =>
      obtain ⟨⟨hkeyword, hvalue⟩, -⟩ := h
      exact List.forall_mem_cons.2 ⟨Token.isPrinted_keyword hkeyword, Value.isPrinted_title hvalue⟩
    | literal l => exact List.forall_mem_singleton.2 (Literal.IsWellFormed.isPrinted h.content)

/-- Nothing in a well-formed row is passed over. -/
theorem Row.IsWellFormed.isSkipped {r : Row} (h : r.IsWellFormed) :
    ∀ t ∈ r.leaves, t.kind.isSkipped = false := by
  rw [leaves_eq_lines]
  refine List.forall_mem_flatMap.2 fun l hl => List.forall_mem_append.2 ⟨fun t ht => ?_, ?_⟩
  · have := ((h.lines l hl).1 t ht).kind
    cases hkind : t.kind <;> first | rfl | (rw [hkind] at this; exact Bool.noConfusion this)
  · exact List.forall_mem_singleton.2 (by rw [(h.lines l hl).2]; rfl)

/-! ## Rows on one line -/

/-- A line end comes last, or before the words that tell what a list consists of. -/
def OnOneLine (tokens : List Token) : Prop :=
  tokens.IsChain fun t u => t.kind = .lineEnd → u.kind = .keyword .consistsOf

theorem OnOneLine.concat {words : List Token} (h : ∀ t ∈ words, t.kind ≠ .lineEnd) (e : Token) :
    OnOneLine (words ++ [e]) := by
  induction words with
  | nil => exact .singleton e
  | cons t words ih =>
    obtain ⟨ht, hwords⟩ := List.forall_mem_cons.1 h
    cases words with
    | nil => exact .cons_cons (fun hend => absurd hend ht) (.singleton e)
    | cons u words => exact .cons_cons (fun hend => absurd hend ht) (ih hwords)

theorem Row.IsWellFormed.onOneLine {r : Row} (h : r.IsWellFormed) : OnOneLine r.leaves := by
  have hwords : ∀ l ∈ r.lines, ∀ t ∈ l.words, t.kind ≠ .lineEnd := fun l hl t ht =>
    ((h.lines l hl).1 t ht).ne_lineEnd
  have hone : ∀ l, r.lines = [l] → OnOneLine r.leaves := by
    intro l hl
    rw [leaves_eq_lines, hl, List.flatMap_singleton]
    exact .concat (hwords l (hl ▸ List.mem_cons_self)) l.lineEnd
  cases r with
  | list k title headerEnd c e =>
    cases headerEnd with
    | none => exact hone _ rfl
    | some b =>
      obtain ⟨-, -, -, hc, -⟩ := h
      obtain ⟨hhead, htail⟩ := List.forall_mem_cons.1 hwords
      rw [leaves_eq_lines]
      exact List.IsChain.append (OnOneLine.concat hhead b)
        (OnOneLine.concat (List.forall_mem_singleton.1 htail) e) fun t _ u hu _ =>
          Option.some.inj hu ▸ hc
  | _ => exact hone _ rfl

end Wireframe
