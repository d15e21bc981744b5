import Wireframe.Proofs.Grammar.Acceptance
import Wireframe.Proofs.Token.Order
import Wireframe.Reading

/-!
# The tokens of a parsed scene

A scene holds tokens in many fields, and its tokens are read off these in the order of the source.
No token is lost on the way, none occurs twice and none is made up: what is parsed without an error
comes back whole, and so a scene can be parsed again from its own tokens
(`Node.tokens_scene_spec`).
-/

namespace Wireframe

/-- What a text is read to, step by step: it has a locale, is lexed and parsed in it without errors,
    and the comments join the tree. -/
theorem Reading.of_success {o : ReadingOptions} {text : List Char} {locale : Locale} {scene : Scene}
    {tokens : List Token} (h : ofText o text = success locale scene tokens) :
    o.locale? (o.source text) = some locale ∧
      (Lexing.ofText locale (o.source text)).errors = [] ∧
      tokens = (Lexing.ofText locale (o.source text)).tokens ∧
      (Parsing.ofTokens o.errorLimit tokens).errors = [] ∧
      scene = { (Parsing.ofTokens o.errorLimit tokens).scene with
        comments := (Lexing.ofText locale (o.source text)).comments.map Comment.mk } := by
  -- each step that can fail has not failed
  rw [ofText] at h
  cases hlocale : o.locale? (o.source text) with
  | none => rw [hlocale] at h; cases h
  | some found =>
    rw [hlocale] at h
    simp only [inLocale] at h
    split at h
    · cases h
    · next hlex =>
      split at h
      · cases h
      · next hparse =>
        injection h with h1 h2 h3
        subst h1 h2 h3
        rw [Lexing.hasErrors, Bool.not_eq_true, Bool.not_eq_false', List.isEmpty_iff] at hlex
        rw [Parsing.hasErrors, Bool.not_eq_true, Bool.not_eq_false', List.isEmpty_iff] at hparse
        exact ⟨rfl, hlex, rfl, hparse, rfl⟩

/-- A text is read to what it is lexed and parsed to, if nothing is wrong with it. -/
theorem Reading.ofText_eq_success_iff {o : ReadingOptions} {text : List Char} {locale : Locale}
    {scene : Scene} {tokens : List Token} : ofText o text = success locale scene tokens ↔
      o.locale? (o.source text) = some locale ∧
        (Lexing.ofText locale (o.source text)).errors = [] ∧
        tokens = (Lexing.ofText locale (o.source text)).tokens ∧
        (Parsing.ofTokens o.errorLimit tokens).errors = [] ∧
        scene = { (Parsing.ofTokens o.errorLimit tokens).scene with
          comments := (Lexing.ofText locale (o.source text)).comments.map Comment.mk } := by
  refine ⟨of_success, ?_⟩
  rintro ⟨hlocale, hlex, rfl, hparse, rfl⟩
  simp only [ofText, hlocale, inLocale, Lexing.hasErrors, hlex, Parsing.hasErrors, hparse]
  rfl

theorem Reading.exists_of_isSuccess {r : Reading} (h : r.isSuccess = true) :
    ∃ locale scene tokens, r = success locale scene tokens := by
  cases r with
  | success locale scene tokens => exact ⟨locale, scene, tokens, rfl⟩
  | _ => exact Bool.noConfusion h

namespace Parsing

/-- The tokens of a parsed scene are those of the rows that it groups. -/
theorem tokens_scene_eq {s : Scene} {greedy : Prop} {rows : List Row} (h : s.Reads greedy rows)
    (hcomments : s.comments = []) (horder : InOrder (Row.tokens rows)) :
    (Node.scene s).tokens = Row.tokens rows := by
  refine horder.sortByOffset_eq ?_
  change (s.pages.flatMap Page.leaves ++ s.lineEnds ++ s.comments.map Comment.token).Perm _
  rw [hcomments, List.map_nil, List.append_nil]
  exact h.leaves_perm

/-- The grammar reads all tokens of a text. -/
theorem kept_tokens (locale : Locale) (text : List Char) :
    kept (Lexing.ofText locale text).tokens = (Lexing.ofText locale text).tokens := by
  obtain ⟨all, -, htokens, -⟩ := Lexing.exists_inOrder locale text
  rw [htokens, kept, List.filter_filter]
  simp only [Bool.and_self]

/-- Tokens that are parsed without an error are parsed to one scene, whatever the limit. -/
theorem exists_ofTokens_eq {limit : Nat} {tokens other : List Token}
    (h : (ofTokens limit tokens).errors = []) (hkept : kept other = kept tokens)
    (limit' : Nat) : ofTokens limit' other = ⟨(ofTokens limit tokens).scene, []⟩ := by
  obtain ⟨rows, hreads, hcomments, hwell, htokens⟩ := exists_greedy_rows h
  exact ofTokens_of_reads hreads hcomments hwell (hkept.trans htokens.symm) limit'

theorem token_mk_map (comments : List Token) :
    (comments.map Comment.mk).map Comment.token = comments := by
  rw [List.map_map]
  exact List.map_id _

/-- What the grammar reads and what it skips is all that there is. -/
theorem filter_skipped_perm (all : List Token) :
    (all.filter (!·.kind.isSkipped) ++ all.filter (·.kind.isSkipped)).Perm all := by
  simpa only [Bool.not_not] using List.filter_append_perm (fun t : Token => !t.kind.isSkipped) all

theorem kept_filter (all : List Token) : kept (all.filter (!·.kind.isSkipped)) = kept all := by
  rw [kept, kept, List.filter_filter]
  simp only [Bool.and_self]

/-- The tokens of a scene that is parsed without errors, with the comments,
    are all that there were. -/
theorem tokens_withComments {read comments all : List Token} (horder : InOrder all)
    (hread : read = all.filter (!·.kind.isSkipped))
    (hcomments : comments = all.filter (·.kind.isSkipped))
    {limit : Nat} (herrors : (ofTokens limit read).errors = []) :
    (Node.scene { (ofTokens limit read).scene with comments := comments.map Comment.mk }).tokens =
      all := by
  subst hread hcomments
  obtain ⟨rows, hreads, -, -, -, hrows⟩ := exists_rows limit (all.filter (!·.kind.isSkipped))
  refine horder.sortByOffset_eq
    (.trans (.append ?_ (.of_eq (token_mk_map _))) (filter_skipped_perm all))
  exact hreads.leaves_perm.trans (.of_eq ((hrows.2 herrors).trans (kept_filter all)))

/-- The tokens of a parsed scene are some of those that the grammar reads, in their order, and all
    of them exactly if there is no error. The tokens of a text that is read are those of its scene
    and the comments in it, in their order, and they are parsed to the same pages again. -/
theorem tokens_scene_spec :
    (∀ (limit : Nat) (tokens : List Token), InOrder tokens →
      (Node.scene (ofTokens limit tokens).scene).tokens.Sublist
          (tokens.filter (!·.kind.isSkipped)) ∧
        ((Node.scene (ofTokens limit tokens).scene).tokens = tokens.filter (!·.kind.isSkipped) ↔
          (ofTokens limit tokens).errors = [])) ∧
    ∀ (o : ReadingOptions) (text : List Char) (locale : Locale) (scene : Scene)
      (tokens : List Token), Reading.ofText o text = .success locale scene tokens →
      (Node.scene scene).tokens =
          List.merge tokens (scene.comments.map Comment.token) (fun a b => a.offset ≤ b.offset) ∧
        ∀ limit : Nat, (ofTokens limit (Node.scene scene).tokens).errors = [] ∧
          (ofTokens limit (Node.scene scene).tokens).scene.pages = scene.pages ∧
          (ofTokens limit (Node.scene scene).tokens).scene.lineEnds = scene.lineEnds := by
  constructor
  · intro limit tokens horder
    obtain ⟨rows, hreads, hcomments, -, hsub, hall⟩ := exists_rows limit tokens
    have hrows : InOrder (Row.tokens rows) := (horder.sublist List.filter_sublist).sublist hsub
    rw [tokens_scene_eq hreads hcomments hrows]
    exact ⟨hsub, hall⟩
  · intro o text locale scene tokens hread
    obtain ⟨-, -, rfl, herrors, rfl⟩ := Reading.of_success hread
    obtain ⟨all, horder, htokens, hcomments⟩ := Lexing.exists_inOrder locale (o.source text)
    generalize Lexing.ofText locale (o.source text) = l at *
    rw [tokens_withComments horder htokens hcomments herrors]
    refine ⟨?_, fun limit => ?_⟩
    · rw [token_mk_map]
      refine (horder.merge_eq (htokens ▸ hcomments ▸ filter_skipped_perm all) ?_ ?_).symm
      · rw [htokens]
        exact horder.sublist List.filter_sublist
      · rw [hcomments]
        exact horder.sublist List.filter_sublist
    · have hsame : kept all = kept l.tokens := by rw [htokens, kept_filter]
      rw [exists_ofTokens_eq herrors hsame limit]
      exact ⟨rfl, rfl, rfl⟩

theorem tokens_scene_spec_commented :
    (InOrder [⟨.comma, ",", .ofText 0 .start [',']⟩, ⟨.lineEnd, "\n", .ofText 1 ⟨1, 2⟩ ['\n']⟩] ∧
      (Node.scene (ofTokens 1 [⟨.comma, ",", .ofText 0 .start [',']⟩,
        ⟨.lineEnd, "\n", .ofText 1 ⟨1, 2⟩ ['\n']⟩]).scene).tokens.Sublist
          [⟨.comma, ",", .ofText 0 .start [',']⟩, ⟨.lineEnd, "\n", .ofText 1 ⟨1, 2⟩ ['\n']⟩]) ∧
    ∃ locale scene tokens,
      Reading.ofText .standard "Page: A // c\n".toList = .success locale scene tokens ∧
        (Node.scene scene).tokens =
          List.merge tokens (scene.comments.map Comment.token)
            (fun a b => a.offset ≤ b.offset) := by
  have horder : InOrder [⟨.comma, ",", .ofText 0 .start [',']⟩,
      ⟨.lineEnd, "\n", .ofText 1 ⟨1, 2⟩ ['\n']⟩] := by
    unfold InOrder
    decide
  have hsuccess : (Reading.ofText .standard "Page: A // c\n".toList).isSuccess = true := by
    decide +kernel
  obtain ⟨locale, scene, tokens, hread⟩ := Reading.exists_of_isSuccess hsuccess
  exact ⟨⟨horder, (tokens_scene_spec.1 1 _ horder).1⟩, locale, scene, tokens, hread,
    (tokens_scene_spec.2 _ _ _ _ _ hread).1⟩

end Parsing

end Wireframe
