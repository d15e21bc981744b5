import Wireframe.Proofs.Token.Written

/-!
# Lexemes and lines

No lexeme goes past the end of its line, and a line is cut alike whatever comes after it and however
its line break is written.

* `Locale.length?_lineBreak`: a shape other than that of line ends matches before a line break
  exactly what it would match at the end of the text;
* `lexemeAt?_of_lineEndLength?`: where a line end can be had, it is;
* `lexemeAt?_lineBreak`: the lexeme at a place of a line that does not belong to the line end is the
  same at the end of a text;
* `take_of_lineEnd`, `lineFeed_notMem_take`: line feeds are in line ends only, each the last
  character of its line end;
* `Locale.cut_lineBreak`: a line is cut by itself, and alike before either line break;
* `Locale.cut_lines`: the pieces of a text are those of its lines.
-/

namespace Wireframe

open Text

/-! ## Line breaks -/

/-- A line break: a line feed, by itself or after a carriage return. -/
inductive LineBreak
  | lineFeed
  | returnFeed
  deriving DecidableEq, Repr

namespace LineBreak

/-- The characters of a line break. -/
def chars : LineBreak → List Char
  | lineFeed => ['\n']
  | returnFeed => ['\r', '\n']

theorem exists_cons (b : LineBreak) : ∃ c more, b.chars = c :: more ∧ Shape.isBreak c = true := by
  cases b
  · exact ⟨'\n', [], rfl, rfl⟩
  · exact ⟨'\r', ['\n'], rfl, rfl⟩

theorem isBreak_of_mem (b : LineBreak) {c : Char} (h : c ∈ b.chars) : Shape.isBreak c = true := by
  have hall : ∀ b : LineBreak, ∀ c ∈ b.chars, Shape.isBreak c = true := by
    rintro (_ | _) <;> decide
  exact hall b c h

/-- Whether a line break can stand after a line. After a carriage return only a line feed can, which
    then belongs to it: a second carriage return would be the one of the line break. -/
def Fits (b : LineBreak) (line : List Char) : Prop :=
  line.getLast? = some '\r' → b = lineFeed

theorem fits_lineFeed (line : List Char) : lineFeed.Fits line := fun _ => rfl

theorem Fits.of_append {b : LineBreak} (front : List Char) {line : List Char}
    (h : b.Fits (front ++ line)) : b.Fits line :=
  fun hlast => h (by rw [List.getLast?_append, hlast, Option.some_or])

end LineBreak

/-! ## Shapes before a character that they do not go over -/

/-- Whether a character can be in a number. -/
def isNumeric (c : Char) : Bool :=
  isDigit c || c = '-' || c = '+' || c = '.' || c = 'e' || c = 'E'

/-- The characters of line breaks are blanks, and stop every other match. -/
theorem of_isBreak {c : Char} (hc : Shape.isBreak c = true) : isBlank c = true ∧ isGap c = false ∧
    isNumeric c = false ∧ Shape.isFree c = false ∧ c ∉ ['/', ',', ':'] ∧
      Shape.isLineTail c = false := by
  rw [Shape.isBreak, Bool.or_eq_true, decide_eq_true_eq, decide_eq_true_eq] at hc
  rcases hc with rfl | rfl <;> decide

section Shapes

variable (line rest : List Char) {stop : Char}

theorem takeWhile_stop {p : Char → Bool} (hp : p stop = false) :
    (line ++ stop :: rest).takeWhile p = line.takeWhile p := by
  induction line with
  | nil => rw [List.nil_append, List.takeWhile_cons, hp]; rfl
  | cons c line ih => rw [List.cons_append, List.takeWhile_cons, List.takeWhile_cons, ih]

theorem isBlank_lineFeed : isBlank '\n' = true := by
  decide

theorem digitsLength_stop (h : isDigit stop = false) :
    Shape.digitsLength (line ++ stop :: rest) = Shape.digitsLength line := by
  rw [Shape.digitsLength, takeWhile_stop line rest h, Shape.digitsLength]

theorem decimalsLength_cons (c : Char) : Shape.decimalsLength (c :: rest) =
    if c = '.' then
      if Shape.digitsLength rest = 0 then 0 else 1 + Shape.digitsLength rest
    else 0 := by
  rw [Shape.decimalsLength.eq_def]
  split
  · next h =>
    obtain ⟨rfl, rfl⟩ := List.cons.inj h
    rw [if_pos rfl]
  · next hpoint =>
    refine (if_neg fun hc => ?_).symm
    exact hpoint rest (congrArg (· :: rest) hc)

/-- The length of the sign at the front of an exponent's digits. -/
def exponentSign : List Char → Nat
  | '+' :: _ | '-' :: _ => 1
  | _ => 0

theorem exponentLength_cons (c : Char) : Shape.exponentLength (c :: rest) =
    if c = 'e' || c = 'E' then
      if Shape.digitsLength (rest.drop (exponentSign rest)) = 0 then 0
      else 1 + exponentSign rest + Shape.digitsLength (rest.drop (exponentSign rest))
    else 0 := rfl

theorem exponentSign_le : exponentSign line ≤ line.length := by
  rw [exponentSign.eq_def]
  split <;> simp

/-- The length of the sign of a number. -/
def numberSign : List Char → Nat
  | '-' :: _ => 1
  | _ => 0

theorem numberSign_le : numberSign line ≤ line.length := by
  rw [numberSign.eq_def]
  split <;> simp

theorem numberLength_eq (text : List Char) : Shape.numberLength text =
    if Shape.wholeLength (text.drop (numberSign text)) = 0 then 0
    else
      let integer := numberSign text + Shape.wholeLength (text.drop (numberSign text))
      let fixed := integer + Shape.decimalsLength (text.drop integer)
      fixed + Shape.exponentLength (text.drop fixed) := rfl

section Number

variable (hstop : isNumeric stop = false)

include hstop

theorem isDigit_of_not_isNumeric : isDigit stop = false := by
  simp only [isNumeric, Bool.or_eq_false_iff] at hstop
  exact hstop.1.1.1.1.1

theorem ne_of_not_isNumeric {c : Char} (hc : isNumeric c = true) : stop ≠ c := by
  rintro rfl
  rw [hstop] at hc
  cases hc

theorem wholeLength_stop :
    Shape.wholeLength (line ++ stop :: rest) = Shape.wholeLength line := by
  cases line with
  | nil =>
    by_contra hne
    obtain ⟨hge, hle⟩ := Shape.digit_of_wholeLength hne
    have hall : ∀ c ∈ digits, isDigit c = true := by decide
    have hnot := isDigit_of_not_isNumeric hstop
    rw [hall stop (mem_digits hge hle)] at hnot
    cases hnot
  | cons c line =>
    rw [List.cons_append, Shape.wholeLength_cons, Shape.wholeLength_cons,
      digitsLength_stop line rest (isDigit_of_not_isNumeric hstop)]

theorem decimalsLength_stop :
    Shape.decimalsLength (line ++ stop :: rest) = Shape.decimalsLength line := by
  cases line with
  | nil => rw [List.nil_append, decimalsLength_cons, if_neg (ne_of_not_isNumeric hstop rfl)]; rfl
  | cons c line =>
    rw [List.cons_append, decimalsLength_cons, decimalsLength_cons,
      digitsLength_stop line rest (isDigit_of_not_isNumeric hstop)]

theorem exponentSign_stop : exponentSign (line ++ stop :: rest) = exponentSign line := by
  have hplus := ne_of_not_isNumeric hstop (c := '+') rfl
  have hminus := ne_of_not_isNumeric hstop (c := '-') rfl
  rw [exponentSign.eq_def, exponentSign.eq_def]
  cases line with
  | nil => split <;> simp_all
  | cons c line => split <;> simp_all

theorem exponentLength_stop :
    Shape.exponentLength (line ++ stop :: rest) = Shape.exponentLength line := by
  cases line with
  | nil =>
    have he := ne_of_not_isNumeric hstop (c := 'e') rfl
    have hE := ne_of_not_isNumeric hstop (c := 'E') rfl
    rw [List.nil_append, exponentLength_cons, if_neg (by simp [he, hE])]
    rfl
  | cons c line =>
    rw [List.cons_append, exponentLength_cons, exponentLength_cons,
      exponentSign_stop line rest hstop, List.drop_append_of_le_length (exponentSign_le line),
      digitsLength_stop _ rest (isDigit_of_not_isNumeric hstop)]

theorem numberLength_stop :
    Shape.numberLength (line ++ stop :: rest) = Shape.numberLength line := by
  have hminus := ne_of_not_isNumeric hstop (c := '-') rfl
  have hsign : numberSign (line ++ stop :: rest) = numberSign line := by
    rw [numberSign.eq_def, numberSign.eq_def]
    cases line with
    | nil => split <;> simp_all
    | cons c line => split <;> simp_all
  have hsign_le := numberSign_le line
  rw [numberLength_eq, numberLength_eq, hsign, List.drop_append_of_le_length hsign_le,
    wholeLength_stop _ rest hstop]
  split
  · rfl
  · have hwhole := wholeLength_le (line.drop (numberSign line))
    rw [List.length_drop] at hwhole
    generalize Shape.wholeLength (line.drop (numberSign line)) = whole at hwhole ⊢
    dsimp only
    rw [List.drop_append_of_le_length (by omega), decimalsLength_stop _ rest hstop]
    have hdecimals := decimalsLength_le (line.drop (numberSign line + whole))
    rw [List.length_drop] at hdecimals
    rw [List.drop_append_of_le_length (by omega), exponentLength_stop _ rest hstop]

end Number

theorem freeTextLength_stop (hfree : Shape.isFree stop = false) (hslash : stop ≠ '/') :
    Shape.freeTextLength (line ++ stop :: rest) = Shape.freeTextLength line := by
  have hfree' : ¬ (Shape.isFree stop = true) := by rw [hfree]; exact Bool.false_ne_true
  fun_induction Shape.freeTextLength line with
  | case1 => rw [List.nil_append, freeTextLength_char hslash, if_neg hfree']
  | case2 => rw [List.singleton_append, freeTextLength_slash, if_neg hfree']
  | case3 c line hc ih =>
    rw [List.cons_append, List.cons_append, freeTextLength_slash, if_pos hc, ih]
  | case4 c line hc =>
    rw [List.cons_append, List.cons_append, freeTextLength_slash, if_neg hc]
  | case5 c line _ hslash hc ih =>
    rw [List.cons_append, freeTextLength_char (ne_slash_of_isFree hc), if_pos hc, ih]
  | case6 c line hlast hslash hc =>
    have hne : c ≠ '/' := by
      rintro rfl
      cases line with
      | nil => exact hlast rfl rfl
      | cons d line => exact hslash d line rfl rfl
    rw [List.cons_append, freeTextLength_char hne, if_neg hc]

theorem commentLength?_stop (hstop : Shape.isBreak stop = true) :
    Shape.commentLength? (line ++ stop :: rest) = Shape.commentLength? line := by
  have hslash : stop ≠ '/' := by
    rintro rfl
    cases hstop
  have hslashes : ∀ text : List Char, Shape.commentLength? ('/' :: '/' :: text) =
      some (2 + (text.takeWhile (!Shape.isBreak ·)).length) := fun _ => rfl
  have hnone : ∀ text : List Char, (∀ more, text ≠ '/' :: '/' :: more) →
      Shape.commentLength? text = none := by
    intro text h
    rw [Shape.commentLength?.eq_def]
    split
    · exact absurd rfl (h _)
    · rfl
  by_cases h : ∃ more, line = '/' :: '/' :: more
  · obtain ⟨more, rfl⟩ := h
    rw [List.cons_append, List.cons_append, hslashes, hslashes,
      takeWhile_stop more rest (by rw [hstop]; rfl)]
  · rw [hnone line (not_exists.1 h), hnone]
    rintro more hmore
    rcases line with _ | ⟨c, _ | ⟨d, line⟩⟩
    · exact hslash (List.cons.inj hmore).1
    · exact hslash (List.cons.inj (List.cons.inj hmore).2).1
    · obtain ⟨rfl, htail⟩ := List.cons.inj hmore
      obtain ⟨rfl, -⟩ := List.cons.inj htail
      exact h ⟨line, rfl⟩

theorem closingLength?_lineBreak (b : LineBreak) (closes : Char → Bool) :
    Shape.closingLength? closes (line ++ (b.chars ++ rest)) = Shape.closingLength? closes line := by
  induction line using escape_induction with
  | nil => cases b <;> exact closingLength?_plain (by decide)
  | slash =>
    -- a carriage return after the backslash is taken out of consideration, the line feed is not
    cases b with
    | lineFeed => exact closingLength?_escape '\n'
    | returnFeed =>
      refine (closingLength?_escape '\r').trans ?_
      rw [if_neg (by decide)]
      exact congrArg (Option.map (2 + ·)) (closingLength?_plain (by decide))
  | escape c line ih =>
    rw [List.cons_append, List.cons_append, closingLength?_escape, closingLength?_escape, ih]
  | plain c line hc ih =>
    rw [List.cons_append, closingLength?_plain hc, closingLength?_plain hc, ih]

theorem placeholderLength?_lineBreak (b : LineBreak) :
    Shape.placeholderLength? (line ++ (b.chars ++ rest)) = Shape.placeholderLength? line := by
  cases line with
  | nil => cases b <;> rfl
  | cons c line =>
    by_cases hc : c = '<'
    · subst hc
      exact congrArg (Option.map (1 + ·)) (closingLength?_lineBreak line rest b _)
    · have hnone : ∀ text : List Char, Shape.placeholderLength? (c :: text) = none := fun _ =>
        Shape.length?_eq_none (s := .placeholder) (decide_eq_false hc)
      exact (hnone _).trans (hnone _).symm

end Shapes

/-! ## Line ends -/

theorem drop_length_takeWhile (p : Char → Bool) (text : List Char) :
    text.drop (text.takeWhile p).length = text.dropWhile p := by
  conv => lhs; arg 2; rw [← List.takeWhile_append_dropWhile (p := p) (l := text)]
  exact List.drop_left

theorem lineBreakLength?_chars (b : LineBreak) (rest : List Char) :
    Shape.lineBreakLength? (b.chars ++ rest) = some b.chars.length := by
  cases b <;> rfl

theorem exists_of_lineBreakLength? {text : List Char} {n : Nat}
    (h : Shape.lineBreakLength? text = some n) :
    ∃ (b : LineBreak) (rest : List Char), text = b.chars ++ rest ∧ n = b.chars.length := by
  rw [Shape.lineBreakLength?.eq_def] at h
  split at h
  · exact ⟨.lineFeed, _, rfl, (Option.some.inj h).symm⟩
  · exact ⟨.returnFeed, _, rfl, (Option.some.inj h).symm⟩
  · cases h

/-- A line end is blanks and question marks, and a line break. -/
theorem exists_of_lineEndLength? {text : List Char} {n : Nat}
    (h : Shape.lineEndLength? text = some n) :
    ∃ (tail : List Char) (b : LineBreak) (rest : List Char), text = tail ++ (b.chars ++ rest) ∧
      (∀ c ∈ tail, Shape.isLineTail c = true) ∧ n = (tail ++ b.chars).length := by
  obtain ⟨m, hm, rfl⟩ := Option.map_eq_some_iff.1 h
  obtain ⟨b, rest, hrest, rfl⟩ := exists_of_lineBreakLength? hm
  refine ⟨text.takeWhile Shape.isLineTail, b, rest, ?_, List.all_eq_true.1 List.all_takeWhile,
    (List.length_append ..).symm⟩
  rw [← hrest, drop_length_takeWhile, List.takeWhile_append_dropWhile]

theorem lineFeed_mem_of_lineEndLength? {text : List Char} {n : Nat}
    (h : Shape.lineEndLength? text = some n) : '\n' ∈ text := by
  obtain ⟨tail, b, rest, rfl, -⟩ := exists_of_lineEndLength? h
  refine List.mem_append_right _ (List.mem_append_left _ ?_)
  cases b <;> decide

/-- A line end is one line feed and what is before it. -/
theorem take_of_lineEndLength? {text : List Char} {n : Nat}
    (h : Shape.lineEndLength? text = some n) :
    ∃ front, text.take n = front ++ ['\n'] ∧ '\n' ∉ front := by
  obtain ⟨tail, b, rest, rfl, htail, rfl⟩ := exists_of_lineEndLength? h
  have hfeed : '\n' ∉ tail := fun hmem => absurd (htail _ hmem) (by decide)
  rw [← List.append_assoc, List.take_left]
  cases b
  · exact ⟨tail, rfl, hfeed⟩
  · refine ⟨tail ++ ['\r'], by rw [List.append_assoc]; rfl, ?_⟩
    simpa using hfeed

/-- The blanks and question marks at the front of a line are before its line break. -/
theorem lineEndLength?_append (line : List Char) (b : LineBreak) (rest : List Char) :
    Shape.lineEndLength? (line ++ (b.chars ++ rest)) =
      (Shape.lineBreakLength? (line.dropWhile Shape.isLineTail ++ (b.chars ++ rest))).map
        ((line.takeWhile Shape.isLineTail).length + ·) := by
  obtain ⟨stop, more, hchars, hstop⟩ := b.exists_cons
  have htail : (line ++ (b.chars ++ rest)).takeWhile Shape.isLineTail =
      line.takeWhile Shape.isLineTail := by
    rw [hchars]
    exact takeWhile_stop line (more ++ rest) (of_isBreak hstop).2.2.2.2.2
  rw [Shape.lineEndLength?, htail, List.drop_append_of_le_length (takeWhile_length_le _ line),
    drop_length_takeWhile]

theorem lineEndLength?_lineFeed (line rest : List Char) :
    Shape.lineEndLength? (line ++ '\n' :: rest) = Shape.lineEndLength? (line ++ ['\n']) := by
  have hbreak : ∀ line : List Char, Shape.lineBreakLength? (line ++ '\n' :: rest) =
      Shape.lineBreakLength? (line ++ ['\n']) := by
    rintro (_ | ⟨c, _ | ⟨d, line⟩⟩)
    · rfl
    · simp only [Shape.lineBreakLength?.eq_def]
      split <;> simp_all
    · simp only [Shape.lineBreakLength?.eq_def]
      split <;> simp_all
  refine (lineEndLength?_append line .lineFeed rest).trans (Eq.trans ?_
    (lineEndLength?_append line .lineFeed []).symm)
  exact congrArg (Option.map _) (hbreak _)

/-- Whether a line belongs to its line end does not depend on how its line break is written. -/
theorem lineEndLength?_lineBreak {line : List Char} (hline : '\n' ∉ line) {b : LineBreak}
    (hfits : b.Fits line) (rest : List Char) :
    Shape.lineEndLength? (line ++ (b.chars ++ rest)) =
      (Shape.lineEndLength? (line ++ ['\n'])).map fun _ => (line ++ b.chars).length := by
  have hbreak : ∀ back : List Char, '\n' ∉ back → b.Fits back →
      Shape.lineBreakLength? (back ++ (b.chars ++ rest)) =
        (Shape.lineBreakLength? (back ++ ['\n'])).map fun _ => (back ++ b.chars).length := by
    rintro (_ | ⟨c, _ | ⟨d, back⟩⟩) hback hfits
    · exact lineBreakLength?_chars b rest
    · by_cases hc : c = '\r'
      · subst hc
        rw [hfits rfl]
        rfl
      · have hfeed : c ≠ '\n' := fun h => hback (h ▸ List.mem_cons_self)
        simp only [Shape.lineBreakLength?.eq_def]
        split <;> simp_all
    · have hc : c ≠ '\n' := fun h => hback (h ▸ List.mem_cons_self)
      have hd : d ≠ '\n' := fun h => hback (h ▸ List.mem_cons_of_mem _ List.mem_cons_self)
      simp only [Shape.lineBreakLength?.eq_def]
      split <;> simp_all
  have hsplit := List.takeWhile_append_dropWhile (p := Shape.isLineTail) (l := line)
  have hfeed := lineEndLength?_append line .lineFeed []
  rw [LineBreak.chars, List.append_nil] at hfeed
  rw [lineEndLength?_append, hfeed, hbreak]
  · rw [Option.map_map, Option.map_map]
    congr 1
    funext m
    have hlength := congrArg List.length hsplit
    simp only [List.length_append, Function.comp_apply] at hlength ⊢
    omega
  · exact fun hmem => hline ((List.dropWhile_suffix _).subset hmem)
  · exact .of_append (line.takeWhile Shape.isLineTail) (hsplit.symm ▸ hfits)

/-- What is found first is told by what the answers for the members of a list are. -/
theorem findSome?_congr {α β : Type} {f g : α → Option β} {l : List α} (h : ∀ a ∈ l, f a = g a) :
    l.findSome? f = l.findSome? g := by
  induction l with
  | nil => rfl
  | cons a l ih =>
    obtain ⟨ha, hl⟩ := List.forall_mem_cons.1 h
    rw [List.findSome?_cons, List.findSome?_cons, ha, ih hl]

namespace Locale

variable {locale : Locale} {line rest : List Char}

theorem formLength?_stop {f : WordForm} (hf : f ∈ locale.forms) {stop : Char}
    (hunread : IsUnread stop)
    (hgap : isGap stop = false) (hletter : isLetter stop = false) :
    Shape.formLength? f (line ++ stop :: rest) = Shape.formLength? f line := by
  refine Option.ext fun n => ⟨fun h => ?_, fun h => ?_⟩
  · have hle := formLength?_le_of_unread hf hunread hgap h
    have : Shape.formLength? f (line ++ []) = some n := formLength?_append_congr hf h hle rfl
    rwa [List.append_nil] at this
  · have hle := spelledLength?_le (WordForm.spaced (isOrderly_of_mem hf))
      (formLength?_eq_some_iff.1 h).1
    rw [← List.append_nil line] at h
    exact formLength?_append_congr hf h hle hletter

/-- A shared terminal other than the line end matches before a line break as it does at the end of a
    text. -/
theorem length?_lineBreak_of_mem {t : Terminal} (ht : t ∈ Terminal.shared)
    (hkind : t.kind ≠ .lineEnd)
    (b : LineBreak) : t.shape.length? (line ++ (b.chars ++ rest)) = t.shape.length? line := by
  obtain ⟨stop, more, hchars, hstop⟩ := b.exists_cons
  obtain ⟨-, -, hnumeric, -⟩ := of_isBreak hstop
  have hcons : b.chars ++ rest = stop :: (more ++ rest) := by rw [hchars]; rfl
  cases line with
  | nil =>
    -- nothing but line ends begins with a line break
    have hbegins : ∀ t ∈ Terminal.shared, t.kind ≠ .lineEnd → ∀ c ∈ ['\r', '\n'],
        t.shape.begins c = false := by decide
    have hnil : ∀ t ∈ Terminal.shared, t.shape.length? [] = none := by decide
    rw [hnil t ht, List.nil_append, hcons]
    exact Shape.length?_eq_none (hbegins t ht hkind stop (by simpa [Shape.isBreak] using hstop))
  | cons c line =>
    simp only [Terminal.shared, List.mem_cons, List.not_mem_nil, or_false] at ht
    rcases ht with rfl | rfl | rfl | rfl | rfl | rfl | rfl | rfl
    · exact absurd rfl hkind
    · rw [hcons, Shape.length?, Shape.length?, Shape.blanksLength, Shape.blanksLength,
        takeWhile_stop _ _ (by rw [hstop, Bool.not_true, Bool.and_false])]
    · rw [hcons]
      exact commentLength?_stop _ _ hstop
    · rw [hcons, Shape.length?, Shape.length?, numberLength_stop _ _ hnumeric]
    · rw [List.cons_append, Shape.length?, Shape.length?, Shape.quotationLength?,
        Shape.quotationLength?, closingLength?_lineBreak]
    · exact placeholderLength?_lineBreak _ rest b
    all_goals rfl

/-- Before a line break, what is not a line end matches as it does at the end of a text. -/
theorem length?_lineBreak {t : Terminal} (ht : t ∈ locale.terminals) (hkind : t.kind ≠ .lineEnd)
    (b : LineBreak) : t.shape.length? (line ++ (b.chars ++ rest)) = t.shape.length? line := by
  obtain ⟨stop, more, hchars, hstop⟩ := b.exists_cons
  obtain ⟨hblank, hgap, -, hfree, hmarks, -⟩ := of_isBreak hstop
  have hcons : b.chars ++ rest = stop :: (more ++ rest) := by rw [hchars]; rfl
  rcases mem_terminals.1 ht with ht | ht | rfl
  · exact length?_lineBreak_of_mem ht hkind b
  · have hforms : ∀ f ∈ t.forms, Shape.formLength? f (line ++ stop :: (more ++ rest)) =
        Shape.formLength? f line := fun f hf => formLength?_stop (mem_forms ht hf)
          (isUnread_of_isBlank hblank) hgap (isLetter_of_isBlank hblank)
    rw [hcons, length?_of_mem ht, length?_of_mem ht, findSome?_congr hforms]
  · rw [hcons, Terminal.catchAll, Shape.length?, Shape.length?,
      freeTextLength_stop line _ hfree fun heq => hmarks (heq ▸ List.mem_cons_self)]

theorem length?_lineFeed {t : Terminal} (ht : t ∈ locale.terminals) (hkind : t.kind ≠ .lineEnd) :
    t.shape.length? (line ++ '\n' :: rest) = t.shape.length? line :=
  length?_lineBreak ht hkind .lineFeed

theorem shape_of_lineEnd {t : Terminal} (ht : t ∈ locale.terminals) (hkind : t.kind = .lineEnd) :
    t.shape = .lineEnd := by
  rcases mem_terminals.1 ht with ht | ht | rfl
  · have hshape : ∀ t ∈ Terminal.shared, t.kind = .lineEnd → t.shape = .lineEnd := by
      simp [Terminal.shared]
    exact hshape t ht hkind
  · rcases kind_of_mem ht with ⟨k, hk⟩ | ⟨k, hk⟩ <;> rw [hk] at hkind <;> cases hkind
  · cases hkind

end Locale

/-! ## Lexemes before a line break -/

theorem longestMatch?_congr {terminals : List Terminal} {text other : List Char}
    (h : ∀ t ∈ terminals, t.shape.length? text = t.shape.length? other) :
    longestMatch? terminals text = longestMatch? terminals other := by
  induction terminals using List.reverseRecOn with
  | nil => rfl
  | append_singleton terminals t ih =>
    obtain ⟨hterminals, ht⟩ := List.forall_mem_append.1 h
    rw [longestMatch?_concat, longestMatch?_concat, ih hterminals]
    unfold betterMatch
    rw [List.forall_mem_singleton.1 ht]

section Lexemes

variable {locale : Locale} {line rest text : List Char} {kind : TokenKind} {n : Nat}

/-- Texts on which all terminals match the same begin with the same lexeme. -/
theorem lexemeAt?_congr {other : List Char}
    (h : ∀ t ∈ locale.terminals, t.shape.length? text = t.shape.length? other) :
    lexemeAt? locale.regularTerminals text = lexemeAt? locale.regularTerminals other := by
  obtain ⟨hregular, hfree⟩ := List.forall_mem_append.1 h
  rw [lexemeAt?, lexemeAt?, longestMatch?_congr hregular, List.forall_mem_singleton.1 hfree]

/-- A line end goes on to its line feed, and has no other. -/
theorem take_of_lineEnd (h : lexemeAt? locale.regularTerminals text = some (.lineEnd, n)) :
    ∃ front, text.take n = front ++ ['\n'] ∧ '\n' ∉ front :=
  take_of_lineEndLength? (length?_of_lexemeAt? (t := ⟨.lineEnd, .lineEnd⟩)
    (by simp [Terminal.shared]) h).2

/-- Where a line end can be had, it is: anything else ends before the line break. -/
theorem lexemeAt?_of_lineEndLength? (h : Shape.lineEndLength? text = some n) :
    lexemeAt? locale.regularTerminals text = some (.lineEnd, n) := by
  have hmem : (⟨.lineEnd, .lineEnd⟩ : Terminal) ∈ locale.regularTerminals :=
    Locale.mem_regularTerminals.2 (.inl List.mem_cons_self)
  rw [lexemeAt?]
  cases hlongest : longestMatch? locale.regularTerminals text with
  | none =>
    have hnone : Shape.lineEndLength? text = none := longestMatch?_eq_none_iff.1 hlongest _ hmem
    rw [h] at hnone
    cases hnone
  | some found =>
    obtain ⟨kind, m⟩ := found
    obtain ⟨⟨t, ht, rfl, hlength⟩, hmax⟩ := longestMatch?_eq_some hlongest
    have hle : n ≤ m := hmax _ hmem n h
    have ht' : t ∈ locale.terminals := List.mem_append_left _ ht
    by_cases hkind : t.kind = .lineEnd
    · rw [Locale.shape_of_lineEnd ht' hkind, Shape.length?, h] at hlength
      rw [hkind, Option.some.inj hlength]
    · obtain ⟨tail, b, rest, rfl, -, rfl⟩ := exists_of_lineEndLength? h
      rw [Locale.length?_lineBreak ht' hkind] at hlength
      have hshort := (locale.length?_le ht' hlength).2
      have hpos : 0 < b.chars.length := by cases b <;> decide
      rw [List.length_append] at hle
      omega

/-- The lexeme at a place of a line that does not belong to the line end is the same at the end of a
    text. -/
theorem lexemeAt?_lineBreak (locale : Locale) (hline : '\n' ∉ line)
    (hend : Shape.lineEndLength? (line ++ ['\n']) = none) {b : LineBreak} (hfits : b.Fits line)
    (rest : List Char) : lexemeAt? locale.regularTerminals (line ++ (b.chars ++ rest)) =
      lexemeAt? locale.regularTerminals line := by
  refine lexemeAt?_congr fun t ht => ?_
  by_cases hkind : t.kind = .lineEnd
  · have hnone : Shape.lineEndLength? line = none := by
      cases h : Shape.lineEndLength? line with
      | none => rfl
      | some n => exact absurd (lineFeed_mem_of_lineEndLength? h) hline
    rw [Locale.shape_of_lineEnd ht hkind, Shape.length?, Shape.length?,
      lineEndLength?_lineBreak hline hfits, hend, hnone]
    rfl
  · exact Locale.length?_lineBreak ht hkind b

/-- What is not a line end ends before the line feed. -/
theorem le_of_lexemeAt?_lineFeed (hkind : kind ≠ .lineEnd)
    (h : lexemeAt? locale.regularTerminals (line ++ '\n' :: rest) = some (kind, n)) :
    n ≤ line.length := by
  obtain ⟨t, ht, rfl, hlength⟩ := exists_terminal h
  rw [Locale.length?_lineFeed ht hkind] at hlength
  exact (locale.length?_le ht hlength).2

/-- What is not a line end has no line feed. -/
theorem lineFeed_notMem_take (hkind : kind ≠ .lineEnd)
    (h : lexemeAt? locale.regularTerminals text = some (kind, n)) : '\n' ∉ text.take n := by
  intro hmem
  obtain ⟨line, rest, hsplit⟩ := List.append_of_mem hmem
  rw [← List.take_append_drop n text, hsplit, List.append_assoc, List.cons_append] at h
  have hle := le_of_lexemeAt?_lineFeed hkind h
  have hlength := congrArg List.length hsplit
  rw [List.length_take, List.length_append, List.length_cons] at hlength
  omega

end Lexemes

/-! ## The pieces of lines -/

section Cut

variable {line rest : List Char}

theorem consStray_append (c : Char) (pieces : List Piece) (kind : TokenKind) (image : List Char)
    (more : List Piece) : consStray c (pieces ++ .lexeme kind image :: more) =
      consStray c pieces ++ .lexeme kind image :: more := by
  cases pieces with
  | nil => rfl
  | cons piece pieces => cases piece <;> rfl

theorem lexeme_mem_consStray {c : Char} {pieces : List Piece} {kind : TokenKind} {image : List Char}
    (h : .lexeme kind image ∈ consStray c pieces) : .lexeme kind image ∈ pieces := by
  rw [consStray.eq_def] at h
  split at h <;> simpa using h

/-- How a line is cut before either line break: into pieces that are no line ends, and a line end,
    which may begin with the blanks of the tail. -/
structure Locale.CutsLine (locale : Locale) (line : List Char) (pieces : List Piece)
    (tail : List Char) : Prop where
  kind_ne : ∀ kind image, .lexeme kind image ∈ pieces → kind ≠ .lineEnd
  notMem_tail : '\n' ∉ tail
  cut_eq : ∀ b : LineBreak, b.Fits line → ∀ rest,
    cut locale.regularTerminals (line ++ (b.chars ++ rest)) =
      pieces ++ .lexeme .lineEnd (tail ++ b.chars) :: cut locale.regularTerminals rest

namespace Locale.CutsLine

variable {locale : Locale} {pieces : List Piece} {tail : List Char}

/-- All of a line may belong to the line end. -/
theorem of_lineEnd (hline : '\n' ∉ line) {n : Nat}
    (hend : Shape.lineEndLength? (line ++ ['\n']) = some n) : locale.CutsLine line [] line where
  kind_ne _ _ h := absurd h List.not_mem_nil
  notMem_tail := hline
  cut_eq b hfits rest := by
    rw [← List.append_assoc]
    refine cut_append (lexemeAt?_of_lineEndLength? ?_)
    rw [List.append_assoc, lineEndLength?_lineBreak hline hfits, hend]
    rfl

theorem stray {c : Char} (h : locale.CutsLine line pieces tail) (hline : '\n' ∉ c :: line)
    (hend : Shape.lineEndLength? (c :: line ++ ['\n']) = none)
    (hnone : lexemeAt? locale.regularTerminals (c :: line) = none) :
    locale.CutsLine (c :: line) (consStray c pieces) tail where
  kind_ne kind image hmem := h.kind_ne kind image (lexeme_mem_consStray hmem)
  notMem_tail := h.notMem_tail
  cut_eq b hfits rest := by
    rw [← consStray_append, ← h.cut_eq b (LineBreak.Fits.of_append [c] hfits)]
    exact cut_none ((lexemeAt?_lineBreak locale hline hend hfits rest).trans hnone)

theorem lexeme {kind : TokenKind} {image : List Char} (h : locale.CutsLine line pieces tail)
    (hline : '\n' ∉ image ++ line) (hend : Shape.lineEndLength? (image ++ line ++ ['\n']) = none)
    (hlexeme : lexemeAt? locale.regularTerminals (image ++ line) = some (kind, image.length)) :
    locale.CutsLine (image ++ line) (.lexeme kind image :: pieces) tail where
  kind_ne kind' image' hmem := by
    rcases List.mem_cons.1 hmem with heq | hmem
    · obtain ⟨rfl, rfl⟩ := Piece.lexeme.inj heq
      -- a line end has a line feed, and the line has none
      rintro rfl
      obtain ⟨front, hfront, -⟩ := take_of_lineEnd hlexeme
      rw [List.take_left] at hfront
      refine hline (List.mem_append_left _ ?_)
      rw [hfront]
      exact List.mem_append_right _ List.mem_cons_self
    · exact h.kind_ne kind' image' hmem
  notMem_tail := h.notMem_tail
  cut_eq b hfits rest := by
    rw [List.append_assoc, List.cons_append, ← h.cut_eq b (.of_append image hfits)]
    refine cut_append ?_
    rw [← List.append_assoc, lexemeAt?_lineBreak locale hline hend hfits, hlexeme]

end Locale.CutsLine

/-- A line that ends is cut by itself, and in the same way before either line break. -/
theorem Locale.cut_lineBreak (locale : Locale) (hline : '\n' ∉ line) :
    ∃ pieces tail, locale.CutsLine line pieces tail := by
  induction line using cut_induction locale with
  | nil => exact ⟨[], [], .of_lineEnd hline rfl⟩
  | stray c line hnone ih =>
    cases hend : Shape.lineEndLength? (c :: line ++ ['\n']) with
    | some n => exact ⟨[], _, .of_lineEnd hline hend⟩
    | none =>
      obtain ⟨pieces, tail, h⟩ := ih fun h => hline (List.mem_cons_of_mem _ h)
      exact ⟨_, tail, h.stray hline hend hnone⟩
  | lexeme kind image line hne hlexeme ih =>
    cases hend : Shape.lineEndLength? (image ++ line ++ ['\n']) with
    | some n => exact ⟨[], _, .of_lineEnd hline hend⟩
    | none =>
      obtain ⟨pieces, tail, h⟩ := ih fun h => hline (List.mem_append_right _ h)
      exact ⟨_, tail, h.lexeme hline hend hlexeme⟩

theorem Locale.cut_line (locale : Locale) (hline : '\n' ∉ line) : ∃ pieces image,
    (∀ kind image, .lexeme kind image ∈ pieces → kind ≠ .lineEnd) ∧
      ∀ rest, cut locale.regularTerminals (line ++ '\n' :: rest) =
        pieces ++ .lexeme .lineEnd image :: cut locale.regularTerminals rest := by
  obtain ⟨pieces, tail, hkinds, -, hcut⟩ := locale.cut_lineBreak hline
  exact ⟨pieces, tail ++ ['\n'], hkinds, hcut .lineFeed (LineBreak.fits_lineFeed line)⟩

/-- A fact about texts that are empty or end with a line feed, line by line. -/
theorem line_induction {motive : List Char → Prop} (nil : motive [])
    (line : ∀ line text, '\n' ∉ line → motive text → motive (line ++ '\n' :: text))
    {text : List Char} (htext : text = [] ∨ text.getLast? = some '\n') : motive text := by
  induction hn : text.length using Nat.strongRecOn generalizing text with
  | ind n ih =>
    rcases htext with rfl | hlast
    · exact nil
    · obtain ⟨front, rest, rfl, hfront⟩ :=
        List.eq_append_cons_of_mem (List.mem_of_getLast? hlast)
      rw [List.length_append, List.length_cons] at hn
      refine line front rest hfront (ih rest.length (by omega) ?_ rfl)
      cases rest with
      | nil => exact .inl rfl
      | cons c rest =>
        right
        rw [List.getLast?_append, List.getLast?_cons_cons] at hlast
        simpa using hlast

/-- Where a line ends, a text can be cut in two before it is cut into pieces. -/
theorem Locale.cut_lines (locale : Locale) {text : List Char}
    (htext : text = [] ∨ text.getLast? = some '\n')
    (rest : List Char) : cut locale.regularTerminals (text ++ rest) =
      cut locale.regularTerminals text ++ cut locale.regularTerminals rest := by
  refine line_induction (motive := fun text => cut locale.regularTerminals (text ++ rest) =
    cut locale.regularTerminals text ++ cut locale.regularTerminals rest) ?_ ?_ htext
  · rw [cut_nil]
    rfl
  · intro line text hline ih
    obtain ⟨pieces, image, -, hcut⟩ := locale.cut_line hline
    rw [List.append_assoc, List.cons_append, hcut, hcut, ih, List.append_assoc, List.cons_append]

end Cut

end Wireframe
