import Wireframe.Proofs.Grammar.Completeness
import Wireframe.Proofs.Grammar.Language

/-!
# What parsing accepts

Parsing is greedy, looks one token ahead and never goes back, while the grammar is ambiguous. Yet
its choices never lead it astray: whatever the grammar allows is accepted
(`Parsing.errors_eq_nil_iff_mem_scene`). The reason is that the rows of a sentence have a greedy
grouping, too.

The scene that comes out, errors or not, groups rows that are well-formed, and of which the tokens
are among those parsed; all of them exactly if there is no error (`Parsing.exists_rows`).
-/

namespace Wireframe

namespace Parsing

/-- The tokens that the grammar reads. -/
def kept (tokens : List Token) : List Token :=
  tokens.filter (!·.kind.isSkipped)

theorem kept_append (tokens more : List Token) : kept (tokens ++ more) = kept tokens ++ kept more :=
  List.filter_append ..

theorem kept_eq_self {tokens : List Token} (h : ∀ t ∈ tokens, t.kind.isSkipped = false) :
    kept tokens = tokens :=
  List.filter_eq_self.2 fun t ht => by rw [h t ht]; rfl

theorem ofTokens_eq (limit : Nat) (tokens : List Token) :
    ofTokens limit tokens =
      ⟨(Parse.scene ⟨max 1 limit, finishOf (kept tokens)⟩ ⟨kept tokens, [], []⟩).1.getD .empty,
        (Parse.scene ⟨max 1 limit, finishOf (kept tokens)⟩ ⟨kept tokens, [], []⟩).2.errors⟩ :=
  rfl

/-- A parse can report at least one error. -/
theorem isHalted_start (limit : Nat) {finish : Range} {s : Cursor} (hs : s.errors = []) :
    Parse.isHalted ⟨max 1 limit, finish⟩ s = false := by
  rw [Parse.isHalted, hs, decide_eq_false_iff_not]
  exact Nat.not_le.2 (Nat.le_max_left 1 limit)

/-- The scene that comes out of a parse groups well-formed rows. Their tokens are some of those
    parsed, in order, and all of them exactly if there is no error. -/
theorem exists_rows (limit : Nat) (tokens : List Token) :
    ∃ rows, (ofTokens limit tokens).scene.Reads False rows ∧
      (ofTokens limit tokens).scene.comments = [] ∧ (∀ r ∈ rows, r.IsWellFormed) ∧
      (Row.tokens rows).Sublist (kept tokens) ∧
      (Row.tokens rows = kept tokens ↔ (ofTokens limit tokens).errors = []) := by
  let ctx : ParseContext := ⟨max 1 limit, finishOf (kept tokens)⟩
  let s : Cursor := ⟨kept tokens, [], []⟩
  obtain ⟨⟨x, hx⟩, hstops⟩ := Parse.scene_stops ctx s
  obtain ⟨read, reported, hrest, herrors, -, haccount⟩ := Parse.keeps_scene ctx s
  rw [isHalted_start limit rfl, hx] at haccount
  obtain ⟨used, ⟨rows, ⟨hreads, hcomments⟩, hwell, rfl⟩, hsub, hall, hless⟩ := haccount
  have hscene : ofTokens limit tokens = ⟨x, (Parse.scene ctx s).2.errors⟩ := by
    rw [ofTokens_eq, hx]
    rfl
  rw [hscene]
  replace herrors : (Parse.scene ctx s).2.errors = reported := herrors
  replace hrest : kept tokens = read ++ (Parse.scene ctx s).2.rest := hrest
  refine ⟨rows, hreads, hcomments, hwell, ?_, fun hrows => ?_, fun h => ?_⟩
  · rw [hrest]
    exact hsub.trans (List.sublist_append_left _ _)
  -- an error costs a token, so not all of them are in the rows
  · by_contra h
    have hlt := hless (herrors ▸ h)
    rw [hrows, hrest, List.length_append] at hlt
    omega
  · have hend := hstops.resolve_right (by rw [isHalted_start limit h]; decide)
    rw [hrest, hend, List.append_nil]
    exact hall (herrors ▸ h) rfl

/-- The tokens of a greedy grouping are parsed to it, whatever the limit. -/
theorem ofTokens_of_reads {s : Scene} {rows : List Row} (h : s.Reads True rows)
    (hcomments : s.comments = []) (hwell : ∀ r ∈ rows, r.IsWellFormed) {tokens : List Token}
    (htokens : kept tokens = Row.tokens rows) (limit : Nat) : ofTokens limit tokens = ⟨s, []⟩ := by
  have hscene := Parse.replays_scene h hcomments hwell ⟨max 1 limit, finishOf (kept tokens)⟩
    ⟨kept tokens, [], []⟩ [] (isHalted_start limit rfl)
    (htokens.trans (List.append_nil _).symm) .nil
  rw [ofTokens_eq, hscene]
  rfl

/-- Without an error, the scene that comes out groups all tokens, and greedily. -/
theorem exists_greedy_rows {limit : Nat} {tokens : List Token}
    (h : (ofTokens limit tokens).errors = []) :
    ∃ rows, (ofTokens limit tokens).scene.Reads True rows ∧
      (ofTokens limit tokens).scene.comments = [] ∧ (∀ r ∈ rows, r.IsWellFormed) ∧
      Row.tokens rows = kept tokens := by
  obtain ⟨rows, hreads, -, hwell, -, hall⟩ := exists_rows limit tokens
  obtain ⟨s, hgreedy, hcomments⟩ := hreads.exists_greedy
  have htokens := hall.2 h
  rw [ofTokens_of_reads hgreedy hcomments hwell htokens.symm]
  exact ⟨rows, hgreedy, hcomments, hwell, htokens⟩

/-- A parse has no error exactly on the sentences of the grammar. -/
theorem errors_eq_nil_iff_mem_scene (limit : Nat) (tokens : List Token) :
    (ofTokens limit tokens).errors = [] ↔
      tokens.filter (!·.kind.isSkipped) ∈ Grammar.scene := by
  rw [Grammar.mem_scene]
  constructor
  · intro h
    obtain ⟨rows, hreads, -, hwell, -, hall⟩ := exists_rows limit tokens
    exact ⟨_, rows, hreads, hwell, (hall.2 h).symm⟩
  · rintro ⟨s, rows, hreads, hwell, htokens⟩
    obtain ⟨s', hgreedy, hcomments⟩ := hreads.exists_greedy
    rw [ofTokens_of_reads hgreedy hcomments hwell htokens]

end Parsing

end Wireframe
