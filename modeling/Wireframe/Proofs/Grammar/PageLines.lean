import Wireframe.Proofs.Grammar.Cascade
import Wireframe.Proofs.Grammar.Limit
import Wireframe.Proofs.Grammar.Pages

/-!
# The first lines of pages

Recovery comes back to the pages: whatever is wrong with the lines before, the first line of a page
gives a page (`Parsing.exists_page_of_line`). The one exception is a line that begins a list without
the words that tell what the list consists of. These may stand on the next line, so it is there that
they are missed, and the line that recovery skips is the next one
(`Parsing.not_exists_page_after_list`).
-/

namespace Wireframe

namespace Parse

variable {tokens rest rest' : List Token} {σ τ : Blamed} {es : List ParseError}

/-- No more errors are reported than there are tokens, and one at the end of the input. -/
theorem Reports.length_le (h : Reports tokens σ rest es τ rest') :
    es.length ≤ rest.length + 1 ∧ (σ = .other → es.length ≤ rest.length) := by
  induction h with
  | stay => exact ⟨Nat.zero_le _, fun _ => Nat.zero_le _⟩
  | word _ _ ih =>
    exact ⟨Nat.le_succ_of_le ih.1, fun h => Nat.le_succ_of_le (ih.2 h)⟩
  | lineEnd _ _ ih => exact ⟨Nat.le_succ_of_le ih.1, fun _ => ih.1⟩
  | count _ _ _ _ ih => exact ⟨Nat.succ_le_succ ih.1, nofun⟩
  | other hσ _ _ _ _ ih => exact ⟨Nat.succ_le_succ (ih.2 rfl), fun h => absurd h hσ⟩

variable {ctx : ParseContext} {s : Cursor} {device : Option DeviceTag} {k e : Token} {title : Value}

/-- Where the first line of a page is next, a page with that line comes out. -/
theorem page_of_line (hwell : (Row.page device k title e).IsWellFormed)
    (hhalt : isHalted ctx s = false) (hs : s.rest = (Row.page device k title e).leaves ++ rest) :
    ∃ groups s', page ctx s = (some ⟨device, k, title, e, groups⟩, s') := by
  let s₀ : Cursor := { s with path := s.path ++ [.page] }
  have hheader := (replays_pageHeader hwell).attempt ctx s₀ rest hhalt hs (.any rest)
  obtain ⟨groups, s', hgroups⟩ := loop_isSome TokenKind.startsPage (fun kind =>
    if kind = .keyword .blocks || kind = .keyword .block || kind = .lineEnd then blocksOrNone
    else refuseLine .block) ctx { s₀ with rest := rest }
  refine ⟨groups, { s' with path := s'.path.dropLast }, ?_⟩
  rw [page, within, bind_eq, andThen_some hheader, bind_eq, andThen_some hgroups]
  rfl

/-- A scene goes on with that page. -/
theorem sceneLines_of_page (hwell : (Row.page device k title e).IsWellFormed)
    (hhalt : isHalted ctx s = false) (hs : s.rest = (Row.page device k title e).leaves ++ rest) :
    ∃ groups lines s', loop (fun _ => false) sceneLine ctx s =
      (some (.content ⟨device, k, title, e, groups⟩ :: lines), s') := by
  obtain ⟨t, words, hleaves, hstarts⟩ := hwell.exists_leaves
  have hcons : s.rest = t :: (words ++ rest) := by rw [hs, hleaves]; rfl
  obtain ⟨groups, s', hpage⟩ := page_of_line hwell hhalt hs
  have hline : sceneLine t.kind ctx s = (some (.content ⟨device, k, title, e, groups⟩), s') := by
    rw [sceneLine_page hstarts, contentLine, bind_eq, andThen_some hpage]
    rfl
  obtain ⟨lines, s'', hlines⟩ := loop_isSome (fun _ => false) sceneLine ctx s'
  rw [loop_turn hcons hhalt rfl, hline, hlines]
  split
  · exact ⟨groups, lines, s'', rfl⟩
  · exact ⟨groups, [], s', rfl⟩

end Parse

namespace Parsing

variable {before after : List Token} {device : Option DeviceTag} {k e : Token} {title : Value}

/-- The number of errors is bounded by the number of tokens. -/
theorem length_errors_le (limit : Nat) (tokens : List Token) :
    (ofTokens limit tokens).errors.length ≤ (kept tokens).length + 1 := by
  obtain ⟨τ, rest, hreports⟩ := exists_reports limit tokens
  exact hreports.length_le.1

/-- The end of some lines is only blamed after the first line of a list. -/
theorem found_ne_none {limit : Nat} {lines : List Token} (hends : Parse.EndsLine (kept lines))
    (hlist : Parse.EndsInListHead (kept lines) →
      ∀ e ∈ (ofTokens limit lines).errors, e.found ≠ none)
    {e : ParseError} (he : e ∈ (ofTokens limit lines).errors) : e.found ≠ none := by
  intro hfound
  obtain ⟨τ, rest, hreports⟩ := exists_reports limit lines
  rcases hreports.isMissing he hfound with h | ⟨-, h⟩
  · exact h hends
  · exact hlist h e he hfound

/-- As long as there is room for errors, the lines before a page are parsed as if they stood alone:
    the page comes after their pages, and what is wrong with it after their errors. -/
theorem pages_of_line {limit : Nat} (hwell : (Row.page device k title e).IsWellFormed)
    (hkept : ∀ t ∈ before ++ (Row.page device k title e).leaves ++ after, t.kind.isSkipped = false)
    (hends : Parse.EndsLine before) (hroom : before.length + 1 < limit)
    (hfound : ∀ e ∈ (ofTokens limit before).errors, e.found ≠ none) :
    (∃ groups back,
      (ofTokens limit (before ++ (Row.page device k title e).leaves ++ after)).scene.pages =
        (ofTokens limit before).scene.pages ++ ⟨device, k, title, e, groups⟩ :: back) ∧
      (ofTokens limit before).errors <+:
        (ofTokens limit (before ++ (Row.page device k title e).leaves ++ after)).errors := by
  let more := (Row.page device k title e).leaves ++ after
  have hmore : Parse.BeginsPage more := by
    obtain ⟨t, words, hleaves, hstarts⟩ := hwell.exists_leaves
    exact ⟨t, words ++ after, congrArg (· ++ after) hleaves, hstarts⟩
  have hbefore : kept before = before :=
    kept_eq_self fun t ht => hkept t (List.mem_append_left _ (List.mem_append_left _ ht))
  have hlength := length_errors_le limit before
  rw [hbefore] at hlength
  have hlimit : (ofTokens limit before).errors.length < max 1 limit :=
    Nat.lt_of_le_of_lt hlength (Nat.lt_of_lt_of_le hroom (Nat.le_max_right 1 limit))
  let finish := finishOf (before ++ more)
  obtain ⟨lines, errors, hlines, happend⟩ :=
    exists_loop_append hmore (hbefore.symm ▸ hends) hfound hlimit finish
  rw [hbefore] at happend
  have hhalt : Parse.isHalted ⟨max 1 limit, finish⟩ ⟨more, [.scene], errors⟩ = false := by
    rw [hlines] at hlimit
    exact decide_eq_false (Nat.not_le.2 hlimit)
  obtain ⟨groups, others, s, hpage⟩ := Parse.sceneLines_of_page hwell hhalt rfl
  have hwhole : kept (before ++ (Row.page device k title e).leaves ++ after) = before ++ more :=
    (kept_eq_self hkept).trans (List.append_assoc ..)
  have hall : Parse.loop (fun _ => false) Parse.sceneLine
      ⟨max 1 limit, finishOf (kept (before ++ (Row.page device k title e).leaves ++ after))⟩
      ⟨kept (before ++ (Row.page device k title e).leaves ++ after), [.scene], []⟩ =
        (some (lines ++ .content ⟨device, k, title, e, groups⟩ :: others), s) := by
    rw [hwhole]
    refine happend.trans ?_
    rw [Parse.andThen_some hpage]
    rfl
  rw [ofTokens_of_loop hall, hlines]
  refine ⟨⟨groups, others.filterMap Line.content?, List.filterMap_append⟩, ?_⟩
  -- what is reported after the lines comes after their errors
  obtain ⟨-, reported, -, herrors, -⟩ := (inferInstance : Parse.Built (Parse.loop (fun _ => false)
    Parse.sceneLine)).leads ⟨max 1 limit, finish⟩ ⟨more, [.scene], errors⟩
  rw [hpage] at herrors
  exact ⟨reported, herrors.symm⟩

/-- The first line of a page gives a page, whatever is wrong with the lines before: it comes after
    the pages of these, and its device, keyword, title and line end are those of the line. This
    takes that the limit on errors is not reached, and that the line before does not begin a list of
    which the rest is missing at its end. -/
theorem exists_page_of_line (limit : Nat) (before after : List Token) (device : Option DeviceTag)
    (k : Token) (title : Value) (e : Token) (hwell : (Row.page device k title e).IsWellFormed)
    (hkept : ∀ t ∈ before ++ (Row.page device k title e).leaves ++ after, t.kind.isSkipped = false)
    (hends : ∀ t ∈ before.getLast?, t.kind = .lineEnd)
    (hlist : Parse.EndsInListHead before → ∀ n, ∀ e ∈ (ofTokens n before).errors, e.found ≠ none)
    (hlimit :
      (ofTokens limit (before ++ (Row.page device k title e).leaves ++ after)).errors.length <
        max 1 limit) :
    ∃ p back, (ofTokens limit (before ++ (Row.page device k title e).leaves ++ after)).scene.pages =
      (ofTokens limit before).scene.pages ++ p :: back ∧
        p.device = device ∧ p.keyword = k ∧ p.title = title ∧ p.lineEnd = e := by
  have hbefore : kept before = before :=
    kept_eq_self fun t ht => hkept t (List.mem_append_left _ (List.mem_append_left _ ht))
  -- under a limit that is never reached
  let room := max (max 1 limit) (before.length + 2)
  have hroom : before.length + 1 < room :=
    Nat.lt_of_lt_of_le (Nat.lt_succ_self _) (Nat.le_max_right ..)
  have hle : max 1 limit ≤ max 1 room :=
    Nat.le_trans (Nat.le_max_left (max 1 limit) _) (Nat.le_max_right 1 room)
  have hfound : ∀ e ∈ (ofTokens room before).errors, e.found ≠ none := fun e he =>
    found_ne_none (hbefore.symm ▸ hends) (hbefore.symm ▸ fun h => hlist h room) he
  obtain ⟨⟨groups, back, hpages⟩, hprefix⟩ := pages_of_line hwell hkept hends hroom hfound
  -- the given limit is not reached, so nothing is cut short
  have hwhole := (ofTokens_truncates _ hle).2 hlimit
  have hlines : ofTokens limit before = ofTokens room before := by
    refine (ofTokens_truncates _ hle).2 (Nat.lt_of_le_of_lt ?_ hlimit)
    rw [(ofTokens_truncates _ hle).1, hwhole]
    exact Nat.le_trans (List.length_take_le' _ _) hprefix.length_le
  exact ⟨⟨device, k, title, e, groups⟩, back, by rw [hwhole, hlines, hpages], rfl, rfl, rfl, rfl⟩

/-- A page after two bad lines. -/
theorem exists_page_of_line_bad :
    let token (kind : TokenKind) : Token := ⟨kind, "", .origin⟩
    let before := [token (.keyword .block), token .lineEnd, token .comma, token .lineEnd]
    let device : DeviceTag := ⟨.mobile, token (.keyword .mobile)⟩
    let title : Value := .freeText (token .freeText)
    let line := (Row.page (some device) (token (.keyword .page)) title (token .lineEnd)).leaves
    let after := [token (.keyword .page)]
    (Row.page (some device) (token (.keyword .page)) title (token .lineEnd)).IsWellFormed ∧
      (∀ t ∈ before ++ line ++ after, t.kind.isSkipped = false) ∧
      (∀ t ∈ before.getLast?, t.kind = .lineEnd) ∧ ¬ Parse.EndsInListHead before ∧
      (ofTokens 9 (before ++ line ++ after)).errors.length = 3 ∧
      ∃ p back, (ofTokens 9 (before ++ line ++ after)).scene.pages =
        (ofTokens 9 before).scene.pages ++ p :: back ∧ p.device = some device ∧
          p.keyword = token (.keyword .page) ∧ p.title = title ∧ p.lineEnd = token .lineEnd := by
  intro token before device title line after
  have hwell :
      (Row.page (some device) (token (.keyword .page)) title (token .lineEnd)).IsWellFormed :=
    ⟨fun d hd => Option.some.inj hd ▸ rfl, rfl, rfl, rfl⟩
  have hkept : ∀ t ∈ before ++ line ++ after, t.kind.isSkipped = false := by decide
  have hnone : ∀ t ∈ before, t.kind ≠ .keyword .list := by decide
  have hlist : ¬ Parse.EndsInListHead before := fun ⟨_, _, front, k, title, h, hk, _⟩ =>
    hnone k (h ▸ by simp) hk
  have hlength : (ofTokens 9 (before ++ line ++ after)).errors.length = 3 := by decide +kernel
  exact ⟨hwell, hkept, by decide, hlist, hlength,
    exists_page_of_line 9 before after (some device) _ title _ hwell hkept (by decide)
      (fun h => absurd h hlist) (by rw [hlength]; decide)⟩

/-- A list that does not say what it consists of takes the line after it along, and that is the
    first line of a page. -/
theorem not_exists_page_after_list :
    let token (kind : TokenKind) (image : String) : Token := ⟨kind, image, .origin⟩
    let before := [token (.keyword .page) "Page:", token .freeText "A", token .lineEnd "\n",
      token (.keyword .block) "Block:", token .freeText "B", token .lineEnd "\n",
      token (.keyword .list) "List", token .lineEnd "\n"]
    let title : Value := .freeText (token .freeText "C")
    let line := (Row.page none (token (.keyword .page) "Page:") title (token .lineEnd "\n")).leaves
    (Row.page none (token (.keyword .page) "Page:") title (token .lineEnd "\n")).IsWellFormed ∧
      (∀ t ∈ before ++ line, t.kind.isSkipped = false) ∧
      (∀ t ∈ before.getLast?, t.kind = .lineEnd) ∧
      (ofTokens 9 (before ++ line)).errors.length < max 1 9 ∧
      ¬ ∃ p ∈ (ofTokens 9 (before ++ line)).scene.pages, p.device = none ∧
        p.keyword = token (.keyword .page) "Page:" ∧ p.title = title ∧
          p.lineEnd = token .lineEnd "\n" := by
  intro token before title line
  exact ⟨⟨fun _ hd => absurd hd (Option.not_mem_none _), rfl, rfl, rfl⟩, by decide, by decide,
    by decide +kernel, by decide +kernel⟩

end Parsing

end Wireframe
