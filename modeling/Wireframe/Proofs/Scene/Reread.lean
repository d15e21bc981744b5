import Wireframe.Proofs.Scene.Relexed
import Wireframe.Proofs.Scene.Relaid

/-!
# What is read from a sheet

What a token shows when it is printed is what is essential of it (`Token.essentialImage_eq`). So a
sheet is lexed to tokens that are essentially those of the layout of its scene
(`Lexing.Stamped.essence`), which are parsed to what is essential of the scene, but for blank lines
(`Parsing.ofTokens_essence`).
-/

namespace Wireframe

open Text

/-! ## The essence of a token that is printed -/

section Essence

variable {locale : Locale} {t : Token}

theorem trim_trim (text : List Char) : trim (trim text) = trim text := by
  obtain ⟨blanks, hblanks, -, hlast⟩ := exists_trimEnd (text.dropWhile isBlank)
  rw [← trim] at hblanks hlast
  have hfirst : ∀ c ∈ (trim text).head?, isBlank c = false := by
    intro c hc
    have hdrop : (text.dropWhile isBlank).head? = some c := by
      rw [hblanks, List.head?_append_of_ne_nil _ (List.ne_nil_of_mem (List.mem_of_mem_head? hc))]
      exact hc
    have := List.head?_dropWhile_not isBlank text
    rwa [hdrop] at this
  exact trim_eq_self hfirst hlast

namespace Token

theorem isRenaming_essence : IsRenaming essence :=
  .of_image (fun _ => rfl) fun t ht => by simp [essence, essentialImage, ht]

theorem essence_lineEnd (h : t.kind = .lineEnd) : t.essence = .newline := by
  rw [essence, essentialImage, h]
  rfl

/-- A token that is printed shows what is essential of it. -/
theorem essentialImage_eq (hlexeme : t.IsLexeme locale) (ht : t.IsPrinted) :
    t.essentialImage = String.ofList t.shown := by
  obtain ⟨rest, h⟩ := hlexeme
  have hkind := ht.kind
  cases hk : t.kind with
  | keyword k => rw [essentialImage, shown, hk]; rfl
  | numeral n => rw [essentialImage, shown, hk]; rfl
  | freeText => rw [essentialImage, shown, hk]; rfl
  | number =>
    rw [essentialImage, hk, shown_of_number h hk (ht.number hk)]
    exact String.ofList_toList.symm
  | quotation =>
    rw [essentialImage, hk, shown_of_literal h (by rw [hk]; rfl)]
    exact String.ofList_toList.symm
  | placeholder =>
    rw [essentialImage, hk, shown_of_literal h (by rw [hk]; rfl)]
    exact String.ofList_toList.symm
  | comma =>
    rw [essentialImage, hk, shown_of_comma h hk, ← chars_of_comma h hk]
    exact String.ofList_toList.symm
  | _ => rw [hk] at hkind; exact Bool.noConfusion hkind

/-- What is shown of a token shows itself. -/
theorem shown_essence (hlexeme : t.IsLexeme locale) (ht : t.IsPrinted) :
    t.essence.shown = t.shown := by
  have hchars : t.essence.chars = t.shown := by
    rw [essence, chars, essentialImage_eq hlexeme ht, String.toList_ofList]
  rw [shown, hchars]
  split
  · next hword =>
    obtain ⟨rest, h⟩ := hlexeme
    obtain ⟨-, -, f, -, -, hspelling, -⟩ := exists_form_of_shown h hword
    obtain ⟨c, more, hshown, hblank, -⟩ := exists_shown_cons h ht
    have hself := hspelling.squeezed_self
    rw [hshown] at hself ⊢
    exact hself.squeeze_eq hblank
  · next hword =>
    have hword : ¬ t.kind.isWord := hword
    rw [shown, if_neg hword, trim_trim]

theorem essence_essence (hlexeme : t.IsLexeme locale) (ht : t.IsPrinted) :
    t.essence.essence = t.essence := by
  have hshown := shown_essence hlexeme ht
  have himage := essentialImage_eq hlexeme ht
  have hkind := ht.kind
  have hsame : t.essence.essentialImage = t.essentialImage := by
    rw [himage, ← hshown, essentialImage, show t.essence.kind = t.kind from rfl, shown,
      show t.essence.kind = t.kind from rfl]
    cases hk : t.kind with
    | keyword k => rfl
    | numeral n => rfl
    | freeText => rfl
    | _ =>
      first
      | rw [hk] at hkind; exact Bool.noConfusion hkind
      | rw [shown, show t.essence.kind = t.kind from rfl, hk] at hshown
        exact himage.trans (congrArg String.ofList hshown.symm)
  rw [essence, hsame]
  rfl

end Token

/-- The token that a stamp tells of. -/
def Stamp.token (x : Stamp) : Token :=
  ⟨x.kind, String.ofList x.chars, .origin⟩

theorem Token.essence_stamp (t : Token) : t.stamp.token.essence = t.essence := by
  have htoken : t.stamp.token = { t with range := .origin } :=
    congrArg (Token.mk t.kind · .origin) String.ofList_toList
  rw [htoken]
  rfl

theorem Token.token_stampAt (hlexeme : t.IsLexeme locale) (ht : t.IsPrinted) (n : Nat) :
    (t.stampAt n).token = t.essence :=
  congrArg (Token.mk t.kind · .origin) (essentialImage_eq hlexeme ht).symm

end Essence

/-! ## The essence of a sheet -/

namespace SheetLine

/-- The tokens on a line of a sheet, as far as they are not layout. -/
def essence : SheetLine → List Token
  | comment .. => []
  | words _ ws => ws.map Token.essence ++ [.newline]

/-- The comment that is a line of a sheet, as far as it is not layout. -/
def commentEssence : SheetLine → List Token
  | comment _ c => [c.essence]
  | words .. => []

end SheetLine

section Sheet

variable {locale : Locale} {sheet : List SheetLine}

theorem flatMap_zipIdx {α β : Type} (f : α → List β) (xs : List α) (n : Nat) :
    ((xs.zipIdx n).flatMap fun x => f x.1) = xs.flatMap f := by
  rw [← List.flatMap_map, List.zipIdx_map_fst]

theorem map_essence_of_stamps {tokens : List Token} {stamps : List Stamp}
    (h : tokens.map Token.stamp = stamps) :
    tokens.map Token.essence = stamps.map fun x => x.token.essence := by
  rw [← h, List.map_map]
  exact List.map_congr_left fun t _ => t.essence_stamp.symm

/-- What a line of a sheet is lexed to is essentially what was put on it. -/
theorem SheetLine.IsSet.essence {line : SheetLine} (h : line.IsSet locale) (n : Nat) :
    (tokens (line, n)).map (·.token.essence) = line.essence ∧
      (comments (line, n)).map (·.token.essence) = line.commentEssence := by
  cases h with
  | @comment c text level hkind =>
    refine ⟨rfl, congrArg ([·]) ?_⟩
    rw [Token.stampAt_of_comment hkind]
    simp [Stamp.token, Token.essence, Token.essentialImage, hkind,
      Token.trimmed, Token.chars, trim_trim]
  | blank level => exact ⟨rfl, rfl⟩
  | @words ws text level hwritten _ hprinted =>
    refine ⟨?_, rfl⟩
    rw [tokens, SheetLine.essence, List.map_append, List.map_map]
    refine congrArg₂ (· ++ ·) (List.map_congr_left fun t ht => ?_) rfl
    have hlexeme := hwritten.isLexeme t ht
    have hprinted := hprinted t ht
    rw [Function.comp_apply, Token.token_stampAt hlexeme hprinted,
      Token.essence_essence hlexeme hprinted]

/-- What a sheet is lexed to is essentially what was put on it. -/
theorem Lexing.Stamped.essence {l : Lexing}
    (h : l.Stamped ((sheet.zipIdx 1).flatMap SheetLine.tokens)
      ((sheet.zipIdx 1).flatMap SheetLine.comments))
    (hset : ∀ line ∈ sheet, line.IsSet locale) :
    l.tokens.map Token.essence = sheet.flatMap SheetLine.essence ∧
      l.comments.map Token.essence = sheet.flatMap SheetLine.commentEssence := by
  have hline {x : SheetLine × Nat} (hx : x ∈ sheet.zipIdx 1) : x.1.IsSet locale :=
    hset x.1 (List.fst_mem_of_mem_zipIdx hx)
  rw [map_essence_of_stamps h.tokens, map_essence_of_stamps h.comments, List.map_flatMap,
    List.map_flatMap, ← flatMap_zipIdx SheetLine.essence sheet 1,
    ← flatMap_zipIdx SheetLine.commentEssence sheet 1]
  exact ⟨List.flatMap_congr fun x hx => ((hline hx).essence x.2).1,
    List.flatMap_congr fun x hx => ((hline hx).essence x.2).2⟩

theorem LaidRow.flatMap_essence {r : LaidRow} (h : r.row.IsWellFormed) :
    r.lines.flatMap SheetLine.essence = r.row.leaves.map Token.essence := by
  have hlines (ls : List WordLine) (i : Nat) : (ls.mapIdx fun j l =>
      SheetLine.words (r.level + (i + j)) l.words).flatMap SheetLine.essence =
        ls.flatMap fun l => l.words.map Token.essence ++ [.newline] := by
    induction ls generalizing i with
    | nil => rfl
    | cons l ls ih =>
      have := ih (i + 1)
      simp only [Nat.add_assoc, Nat.add_comm 1] at this
      rw [List.mapIdx_cons, List.flatMap_cons, List.flatMap_cons, this]
      rfl
  have := hlines r.row.lines 0
  simp only [Nat.zero_add] at this
  rw [LaidRow.lines, this, Row.leaves_eq_lines, List.map_flatMap]
  refine List.flatMap_congr fun l hl => ?_
  rw [List.map_append, List.map_singleton, Token.essence_lineEnd (h.lines l hl).2]

variable {s : Scene}

/-- The tokens of a sheet are those of the rows of the layout. -/
theorem Scene.flatMap_essence_sheet (h : ∀ r ∈ rowsOf s.laid, r.IsWellFormed) :
    s.sheet.flatMap SheetLine.essence = (Row.tokens (rowsOf s.laid)).map Token.essence := by
  rw [sheet, flatMap_arrange_rows fun _ _ _ => rfl, ← List.flatMap_assoc, s.rows_passages,
    Row.tokens, rowsOf, List.flatMap_map, List.map_flatMap]
  exact List.flatMap_congr fun r hr => r.flatMap_essence (h _ (List.mem_map_of_mem hr))

/-- The comments of a sheet are those of the scene. -/
theorem Scene.flatMap_commentEssence_sheet : s.sheet.flatMap SheetLine.commentEssence =
    (sortByOffset (s.comments.map Comment.token)).map Token.essence := by
  have hrows : ∀ r : LaidRow, ∀ a ∈ r.lines, a.commentEssence = [] := by
    intro r a ha
    obtain ⟨i, hi, rfl⟩ := List.mem_mapIdx.1 ha
    rfl
  rw [sheet, flatMap_arrange_comments (f := fun c => [c.essence]) (fun _ _ _ => rfl) hrows]
  exact List.map_eq_flatMap.symm

end Sheet

/-! ## Parsing what is essential -/

/-- Tokens that are essentially those of a layout are parsed to what is essential of its
    scene, but for blank lines. -/
theorem Parsing.ofTokens_essence {s : Scene} {rows : List Row} (h : s.Reads True rows)
    (hcomments : s.comments = [])
    (hrows : ∀ r ∈ rows, r.IsWellFormed ∧ ∀ t ∈ r.leaves, t.kind.isSkipped = false)
    {reread : List Token}
    (hreread : reread.map Token.essence = (Row.tokens (rowsOf s.laid)).map Token.essence)
    (limit : Nat) : (ofTokens limit reread).errors = [] ∧
      (ofTokens limit reread).scene.map Token.essence = s.relined.map Token.essence := by
  have hlaid := ofTokens_laid h hcomments hrows
  have herrors : (ofTokens limit reread).errors = [] := by
    rw [← errors_map_eq_nil_iff Token.isRenaming_essence limit 1, hreread,
      errors_map_eq_nil_iff Token.isRenaming_essence 1 1, hlaid]
  have hscene := ofTokens_map Token.isRenaming_essence herrors 1
  rw [hreread, ofTokens_map Token.isRenaming_essence (by rw [hlaid 1]) 1, hlaid 1] at hscene
  exact ⟨herrors, (congrArg Parsing.scene hscene).symm⟩

end Wireframe
