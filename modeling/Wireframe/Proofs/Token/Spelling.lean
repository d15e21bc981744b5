import Wireframe.Token.Piece

/-!
# How words are spelled

A form of a word is spelled mark by mark, so a text that is spelled by one form decides how far any
other form goes in it (`Spelling.compare`). With its gaps squeezed to single spaces it is spelled by
the same forms.

What a mark reads is a letter, but for the colon at the end of some keywords
(`Mark.isLetter_or_of_reads`). This is a fact about the case folding of all characters,
and is read off its table.
-/

namespace Wireframe

open Text

/-- What is said of the characters in a list is decided by trying these, and not all there are. -/
instance decidableForallMemChars (cs : List Char) (p : Char → Prop) [DecidablePred p] :
    Decidable (∀ c ∈ cs, p c) :=
  List.decidableBAll p cs

/-! ## What marks read -/

/-- Whether a code point is that of a small letter of English or Russian. -/
def isPlainCode (n : Nat) : Bool :=
  (0x61 ≤ n && n ≤ 0x7A) || (0x430 ≤ n && n ≤ 0x44F) || n = 0x451

/-- A code point is mapped to itself or along one of the runs. -/
theorem shiftByRuns_eq_or (runs : List CodeRun) (n : Nat) : shiftByRuns runs n = n ∨
    ∃ run ∈ runs, ∃ k < run.last - run.first + 1,
      n = run.first + k ∧ shiftByRuns runs n = run.onto + k := by
  induction runs with
  | nil => exact .inl rfl
  | cons run rest ih =>
    rw [shiftByRuns]
    split
    · exact .inl rfl
    · split
      · split
        · refine .inr ⟨run, List.mem_cons_self, n - run.first, ?_, ?_, rfl⟩ <;> omega
        · exact .inl rfl
      · rcases ih with h | ⟨run', hmem, h⟩
        · exact .inl h
        · exact .inr ⟨run', List.mem_cons_of_mem _ hmem, h⟩

/-- What is folded to a plain letter is a letter, and nothing but a colon is folded to one. -/
theorem foldRuns_plain : ∀ run ∈ foldRuns, ∀ k ∈ List.range (run.last - run.first + 1),
    (isPlainCode (run.onto + k) → inRanges letterRanges (run.first + k)) ∧ run.onto + k ≠ 0x3A := by
  decide +kernel

theorem plainCode_facts : ∀ n ∈ List.range 0x452, isPlainCode n →
    inRanges letterRanges n ∧ shiftByRuns foldRuns n = n := by
  decide +kernel

theorem mem_range_of_isPlainCode {n : Nat} (h : isPlainCode n) : n ∈ List.range 0x452 := by
  simp only [isPlainCode, Bool.or_eq_true, Bool.and_eq_true, decide_eq_true_eq] at h
  exact List.mem_range.2 (by omega)

theorem toNat_ofNat_of_ne {n : Nat} (h : (Char.ofNat n).toNat ≠ 0) : (Char.ofNat n).toNat = n := by
  by_cases hn : n.isValidChar
  · rw [Char.ofNat, dif_pos hn]
    rfl
  · rw [Char.ofNat, dif_neg hn] at h
    exact absurd rfl h

theorem toNat_fold {c : Char} (h : (fold c).toNat ≠ 0) :
    (fold c).toNat = shiftByRuns foldRuns c.toNat :=
  toNat_ofNat_of_ne h

theorem isLetter_of_fold {c : Char} (h : isPlainCode (fold c).toNat) : isLetter c := by
  have hne : (fold c).toNat ≠ 0 := fun h0 => by rw [h0] at h; exact absurd h (by decide)
  rw [toNat_fold hne] at h
  rcases shiftByRuns_eq_or foldRuns c.toNat with hsame | ⟨run, hrun, k, hk, hc, hshift⟩
  · rw [hsame] at h
    exact (plainCode_facts _ (mem_range_of_isPlainCode h) h).1
  · rw [hshift] at h
    have := (foldRuns_plain run hrun k (List.mem_range.2 hk)).1 h
    rwa [isLetter, hc]

theorem fold_of_isPlainCode {c : Char} (h : isPlainCode c.toNat) : fold c = c := by
  rw [fold, mapByRuns, (plainCode_facts _ (mem_range_of_isPlainCode h) h).2, Char.ofNat_toNat]

theorem eq_colon_of_fold {c : Char} (h : fold c = ':') : c = ':' := by
  have hcode : shiftByRuns foldRuns c.toNat = 0x3A :=
    (toNat_fold (by rw [h]; decide)).symm.trans (by rw [h]; rfl)
  rcases shiftByRuns_eq_or foldRuns c.toNat with hsame | ⟨run, hrun, k, hk, -, hshift⟩
  · rw [← Char.ofNat_toNat c, ← hsame, hcode]
  · exact absurd (hshift.symm.trans hcode) (foldRuns_plain run hrun k (List.mem_range.2 hk)).2

namespace Mark

/-- The letters that a mark stands for. -/
def letters : Mark → List Char
  | letter c => [c]
  | anyOf group => group
  | gap => []

/-- Whether a mark reads nothing but letters. -/
def isLetterMark (m : Mark) : Bool :=
  m.letters.all fun d => isPlainCode d.toNat

/-- Whether a mark reads nothing but letters, or nothing but a colon. -/
def isPlain (m : Mark) : Bool :=
  m.isLetterMark || m = .letter ':'

variable {m : Mark} {c : Char}

/-- A plain mark reads the characters that are folded to one of its letters. -/
theorem reads_iff (hm : m.isPlain) : m.reads c ↔ fold c ∈ m.letters := by
  -- the letters of a plain mark are folded already
  have hfold : ∀ d ∈ m.letters, fold d = d := by
    intro d hd
    rcases Bool.or_eq_true_iff.1 hm with h | h
    · exact fold_of_isPlainCode (List.all_eq_true.1 h d hd)
    · rw [of_decide_eq_true h] at hd
      rw [List.mem_singleton.1 hd]
      decide
  have hsame : ∀ d ∈ m.letters, (sameLetter d c ↔ fold c = d) := by
    intro d hd
    rw [sameLetter, Bool.or_eq_true, beq_iff_eq, beq_iff_eq, hfold d hd]
    refine ⟨?_, fun h => .inr h.symm⟩
    rintro (rfl | h)
    · exact hfold d hd
    · exact h.symm
  cases m with
  | letter d =>
    rw [letters, List.mem_singleton]
    exact hsame d (List.mem_singleton_self d)
  | anyOf group =>
    simp only [reads, List.any_eq_true]
    refine ⟨?_, fun h => ⟨_, h, (hsame _ h).2 rfl⟩⟩
    rintro ⟨d, hd, h⟩
    exact (hsame d hd).1 h ▸ hd
  | gap => simp [reads, letters]

theorem isLetter_of_isLetterMark (hm : m.isLetterMark) (h : m.reads c) : isLetter c :=
  isLetter_of_fold
    (List.all_eq_true.1 hm _ ((reads_iff (Bool.or_eq_true_iff.2 (.inl hm))).1 h))

/-- A plain mark reads a letter, or else a colon. -/
theorem isLetter_or_of_reads (hm : m.isPlain) (h : m.reads c) :
    m.isLetterMark ∧ isLetter c ∨ c = ':' := by
  rcases Bool.or_eq_true_iff.1 hm with hletter | hcolon
  · exact .inl ⟨hletter, isLetter_of_isLetterMark hletter h⟩
  · have := (reads_iff hm).1 h
    rw [of_decide_eq_true hcolon] at this
    exact .inr (eq_colon_of_fold (List.mem_singleton.1 this))

end Mark

/-- What holds of the listed blanks holds of all. -/
theorem forall_blank {p : Char → Prop} (h : ∀ range ∈ blankRanges,
    ∀ k ∈ List.range (range.last - range.first + 1), p (Char.ofNat (range.first + k))) {c : Char}
    (hc : isBlank c) : p c := by
  have hmem : ∀ (ranges : List CodeRange) (n : Nat), inRanges ranges n = true →
      ∃ range ∈ ranges, range.first ≤ n ∧ n ≤ range.last := by
    intro ranges n h
    induction ranges with
    | nil => exact Bool.noConfusion h
    | cons range rest ih =>
      rw [inRanges] at h
      split at h
      · exact Bool.noConfusion h
      · rcases Bool.or_eq_true_iff.1 h with h | h
        · exact ⟨range, List.mem_cons_self, by omega, of_decide_eq_true h⟩
        · obtain ⟨range', hmem, hle⟩ := ih h
          exact ⟨range', List.mem_cons_of_mem _ hmem, hle⟩
  obtain ⟨range, hrange, hfirst, hlast⟩ := hmem _ _ hc
  have := h range hrange (c.toNat - range.first) (List.mem_range.2 (by omega))
  rwa [Nat.add_sub_cancel' hfirst, Char.ofNat_toNat] at this

theorem isLetter_of_isBlank {c : Char} (h : isBlank c) : isLetter c = false :=
  forall_blank (p := fun c => isLetter c = false) (by decide +kernel) h

theorem isBlank_of_isGap {c : Char} (h : isGap c) : isBlank c := by
  rcases Bool.or_eq_true_iff.1 h with h | h <;> rw [of_decide_eq_true h] <;> decide

/-- A plain mark reads no blanks. -/
theorem Mark.isBlank_of_reads {m : Mark} {c : Char} (hm : m.isPlain) (h : m.reads c) :
    isBlank c = false := by
  rcases Mark.isLetter_or_of_reads hm h with ⟨-, h⟩ | rfl
  · cases hblank : isBlank c with
    | false => rfl
    | true =>
      rw [isLetter_of_isBlank hblank] at h
      exact Bool.noConfusion h
  · decide

/-! ## Spelling -/

/-- A text that is spelled by marks, and the same text with its gaps squeezed. -/
inductive Spelling : List Mark → List Char → List Char → Prop
  | nil : Spelling [] [] []
  | letter {m : Mark} {c : Char} {marks : List Mark} {text squeezed : List Char} :
    m.reads c → isBlank c = false → Spelling marks text squeezed →
      Spelling (m :: marks) (c :: text) (c :: squeezed)
  | gap {blanks : List Char} {c : Char} {marks : List Mark} {text squeezed : List Char} :
    blanks ≠ [] → (∀ b ∈ blanks, isGap b) → isBlank c = false →
    Spelling marks (c :: text) squeezed →
      Spelling (.gap :: marks) (blanks ++ c :: text) (' ' :: squeezed)

theorem isGap_eq_false {c : Char} (h : isBlank c = false) : isGap c = false := by
  cases hc : isGap c with
  | false => rfl
  | true => rw [isBlank_of_isGap hc] at h; exact h

/-- Gaps before a text that does not begin with a blank end where it begins. -/
theorem isGap_head?_eq_false {c : Char} (h : isBlank c = false) (text : List Char) :
    ∀ d ∈ (c :: text).head?, isGap d = false :=
  fun _ hd => Option.some.inj hd ▸ isGap_eq_false h

/-- Whether every gap of some marks stands before a letter. -/
def isSpaced : List Mark → Bool
  | [] => true
  | .gap :: marks => marks.head?.any (· ≠ .gap) && isSpaced marks
  | _ :: marks => isSpaced marks

/-- Marks of which every gap stands before a letter and the others are plain. -/
structure Spaced (marks : List Mark) : Prop where
  gaps : isSpaced marks = true
  plain : ∀ m ∈ marks, m.isPlain

theorem Spaced.tail {m : Mark} {marks : List Mark} (h : Spaced (m :: marks)) : Spaced marks := by
  refine ⟨?_, fun m' hm => h.plain m' (List.mem_cons_of_mem _ hm)⟩
  have := h.gaps
  cases m with
  | gap => exact (Bool.and_eq_true_iff.1 this).2
  | _ => exact this

theorem Spaced.exists_cons {marks : List Mark} (h : Spaced (.gap :: marks)) :
    ∃ m marks', marks = m :: marks' ∧ m ≠ .gap := by
  have := (Bool.and_eq_true_iff.1 h.gaps).1
  cases marks with
  | nil => exact Bool.noConfusion this
  | cons m marks => exact ⟨m, marks, rfl, of_decide_eq_true this⟩

section Length

variable {m : Mark} {c : Char} {marks : List Mark} {rest : List Char}

theorem spelledLength?_cons (h : m.reads c) :
    spelledLength? (m :: marks) (c :: rest) = (spelledLength? marks rest).map (1 + ·) := by
  cases m with
  | gap => exact Bool.noConfusion h
  | _ => simp only [spelledLength?, h, if_true]

theorem spelledLength?_cons_none (hm : m ≠ .gap) (h : m.reads c = false) :
    spelledLength? (m :: marks) (c :: rest) = none := by
  cases m with
  | gap => exact absurd rfl hm
  | _ => simp only [spelledLength?, h, Bool.false_eq_true, if_false]

theorem spelledLength?_nil (h : marks ≠ []) : spelledLength? marks [] = none := by
  cases marks with
  | nil => exact absurd rfl h
  | cons m marks => cases m <;> rfl

theorem spelledLength?_gap_none (h : isGap c = false) :
    spelledLength? (.gap :: marks) (c :: rest) = none := by
  rw [spelledLength?, List.takeWhile_cons_of_neg (by rw [h]; exact Bool.noConfusion)]
  rfl

/-- As much of a list as meets a condition is its front, if what comes after
    does not go on with it. -/
theorem takeWhile_append_stop {α : Type} {p : α → Bool} {xs ys : List α} (hxs : ∀ x ∈ xs, p x)
    (hys : ∀ y ∈ ys.head?, p y = false) : (xs ++ ys).takeWhile p = xs := by
  rw [List.takeWhile_append_of_pos hxs]
  cases ys with
  | nil => exact List.append_nil xs
  | cons y ys =>
    rw [List.takeWhile_cons, hys y rfl]
    exact List.append_nil xs

theorem spelledLength?_gap {blanks : List Char} (hne : blanks ≠ [])
    (hblanks : ∀ b ∈ blanks, isGap b)
    (h : ∀ c ∈ rest.head?, isGap c = false) : spelledLength? (.gap :: marks) (blanks ++ rest) =
      (spelledLength? marks rest).map (blanks.length + ·) := by
  rw [spelledLength?, takeWhile_append_stop hblanks h, if_neg (by simpa using hne), List.drop_left]

end Length

theorem words_cons {c : Char} {text : List Char} (h : isBlank c = false) :
    words (c :: text) = (splitWords (c :: text)).1 :: (splitWords (c :: text)).2 := by
  simp [words, splitWords, h]

/-- Blanks before a text end a word, and separate none. -/
theorem splitWords_append {blanks : List Char} (hne : blanks ≠ [])
    (hblanks : ∀ b ∈ blanks, isBlank b) (text : List Char) :
    splitWords (blanks ++ text) = ([], words text) := by
  induction blanks with
  | nil => exact absurd rfl hne
  | cons b blanks ih =>
    obtain ⟨hb, hblanks⟩ := List.forall_mem_cons.1 hblanks
    simp only [List.cons_append, splitWords, hb, if_true]
    cases blanks with
    | nil => rfl
    | cons b' blanks => rw [ih (List.cons_ne_nil _ _) hblanks]; rfl

namespace Spelling

variable {marks : List Mark} {text squeezed : List Char}

theorem exists_cons {c : Char} (h : Spelling marks (c :: text) squeezed) (hc : isBlank c = false) :
    ∃ squeezed', squeezed = c :: squeezed' := by
  generalize htext : c :: text = text' at h
  cases h with
  | nil => cases htext
  | letter => exact ⟨_, by rw [(List.cons.inj htext).1]⟩
  | @gap blanks d _ _ _ hne hblanks =>
    cases blanks with
    | nil => exact absurd rfl hne
    | cons b blanks =>
      rw [(List.cons.inj htext).1, isBlank_of_isGap (hblanks b List.mem_cons_self)] at hc
      exact Bool.noConfusion hc

/-- A gap that is one space. -/
theorem space {c : Char} (hc : isBlank c = false) (h : Spelling marks (c :: text) squeezed) :
    Spelling (.gap :: marks) (' ' :: c :: text) (' ' :: squeezed) := by
  have hspace : ∀ b ∈ [' '], isGap b := by decide
  exact .gap (List.cons_ne_nil _ _) hspace hc h

/-- The squeezed text is spelled by the same marks. -/
theorem squeezed_self (h : Spelling marks text squeezed) : Spelling marks squeezed squeezed := by
  induction h with
  | nil => exact .nil
  | letter hreads hblank _ ih => exact .letter hreads hblank ih
  | gap hne hblanks hblank h ih =>
    obtain ⟨squeezed', rfl⟩ := h.exists_cons hblank
    exact .space hblank ih

/-- What is spelled comes first, and what remains is left to the other marks. -/
theorem spelledLength?_append (h : Spelling marks text squeezed) (marks' : List Mark)
    (rest : List Char) : spelledLength? (marks ++ marks') (text ++ rest) =
      (spelledLength? marks' rest).map (text.length + ·) := by
  induction h with
  | nil => simp
  | letter hreads _ _ ih =>
    rw [List.cons_append, List.cons_append, spelledLength?_cons hreads, ih, Option.map_map]
    congr 1
    funext n
    simp only [Function.comp, List.length_cons]
    omega
  | gap hne hblanks hblank _ ih =>
    rw [List.cons_append, List.append_assoc, List.cons_append, spelledLength?_gap hne hblanks
      (isGap_head?_eq_false hblank _), ← List.cons_append, ih, Option.map_map]
    congr 1
    funext n
    simp only [Function.comp, List.length_append]
    omega

theorem length_eq (h : Spelling marks text squeezed) (rest : List Char) :
    spelledLength? marks (text ++ rest) = some text.length := by
  have := h.spelledLength?_append [] rest
  rwa [List.append_nil] at this

/-- A text that marks are read off begins with a text that they spell. -/
theorem exists_of_spelledLength? (hmarks : Spaced marks) {n : Nat}
    (h : spelledLength? marks text = some n) :
    ∃ spelled squeezed rest, text = spelled ++ rest ∧ Spelling marks spelled squeezed ∧
      spelled.length = n := by
  induction marks generalizing text n with
  | nil => exact ⟨[], [], text, rfl, .nil, Option.some.inj h⟩
  | cons m marks ih =>
    have hplain := hmarks.plain m List.mem_cons_self
    by_cases hm : m = .gap
    · subst hm
      rw [spelledLength?] at h
      split at h
      · cases h
      · next hne =>
        obtain ⟨k, hk, rfl⟩ := Option.map_eq_some_iff.1 h
        obtain ⟨spelled, squeezed, rest, hdrop, hspelling, rfl⟩ := ih hmarks.tail hk
        obtain ⟨m', marks', rfl, hm'⟩ := hmarks.exists_cons
        have hblanks : ∀ b ∈ text.takeWhile isGap, isGap b := List.all_eq_true.1 List.all_takeWhile
        have htext : text.takeWhile isGap ++ text.drop (text.takeWhile isGap).length = text :=
          List.prefix_iff_eq_append.1 (List.takeWhile_prefix isGap)
        rw [hdrop] at htext
        -- the gap is all the spaces and tabs there, and a letter is spelled after it
        generalize text.takeWhile isGap = blanks at *
        cases hspelling with
        | gap => exact absurd rfl hm'
        | letter hreads hblank hspelling =>
          exact ⟨blanks ++ _ :: _, ' ' :: _ :: _, rest, htext ▸ (List.append_assoc ..).symm,
            .gap (by simpa using hne) hblanks hblank (.letter hreads hblank hspelling),
            List.length_append⟩
    · cases text with
      | nil => rw [spelledLength?_nil (List.cons_ne_nil _ _)] at h; cases h
      | cons c rest =>
        cases hreads : m.reads c with
        | false => rw [spelledLength?_cons_none hm hreads] at h; cases h
        | true =>
          rw [spelledLength?_cons hreads] at h
          obtain ⟨k, hk, rfl⟩ := Option.map_eq_some_iff.1 h
          obtain ⟨spelled, squeezed, rest, rfl, hspelling, rfl⟩ := ih hmarks.tail hk
          exact ⟨c :: spelled, c :: squeezed, rest, rfl,
            .letter hreads (Mark.isBlank_of_reads hplain hreads) hspelling, by
              rw [List.length_cons, Nat.add_comm]⟩

end Spelling

/-- How far the marks `marks'` go in a text that `marks` spell: to its end at least, less far, or
    nowhere at all. They go as far in the squeezed text. -/
inductive Reach (marks : List Mark) (text squeezed : List Char) (marks' : List Mark) : Prop
  | through (front back : List Mark) : marks' = front ++ back → front.length = marks.length →
    Spelling front text squeezed → Reach marks text squeezed marks'
  | short (t t' : List Char) (c c' : Char) (u u' : List Char) : text = t ++ c :: u →
    squeezed = t' ++ c' :: u' → Spelling marks' t t' → isLetter c = isLetter c' →
      marks'.length < marks.length → Reach marks text squeezed marks'
  | nowhere : (∀ rest, spelledLength? marks' (text ++ rest) = none ∧
      spelledLength? marks' (squeezed ++ rest) = none) → Reach marks text squeezed marks'

namespace Reach

variable {marks marks' : List Mark} {text squeezed : List Char} {c : Char}

/-- One letter further on. -/
theorem letter {m m' : Mark} (h : Reach marks text squeezed marks') (hreads : m'.reads c)
    (hblank : isBlank c = false) :
    Reach (m :: marks) (c :: text) (c :: squeezed) (m' :: marks') := by
  cases h with
  | through front back hmarks hlength hfront =>
    exact .through (m' :: front) back (congrArg _ hmarks) (congrArg (· + 1) hlength)
      (.letter hreads hblank hfront)
  | short t t' d d' u u' htext hsqueezed ht hd hlength =>
    exact .short (c :: t) (c :: t') d d' u u' (congrArg _ htext) (congrArg _ hsqueezed)
      (.letter hreads hblank ht) hd (Nat.succ_lt_succ hlength)
  | nowhere hnone =>
    refine .nowhere fun rest => ?_
    rw [List.cons_append, List.cons_append, spelledLength?_cons hreads, spelledLength?_cons hreads,
      (hnone rest).1, (hnone rest).2]
    exact ⟨rfl, rfl⟩

/-- One gap further on. What comes after it is a letter, so the other marks do not stop there. -/
theorem gap {blanks : List Char} (h : Reach marks (c :: text) squeezed marks')
    (hmarks' : Spaced (.gap :: marks')) (hne : blanks ≠ []) (hblanks : ∀ b ∈ blanks, isGap b)
    (hblank : isBlank c = false) (hspelling : Spelling marks (c :: text) squeezed) :
    Reach (.gap :: marks) (blanks ++ c :: text) (' ' :: squeezed) (.gap :: marks') := by
  have hgap := isGap_head?_eq_false hblank
  cases h with
  | through front back hmarks hlength hfront =>
    exact .through (.gap :: front) back (congrArg _ hmarks) (congrArg (· + 1) hlength)
      (.gap hne hblanks hblank hfront)
  | short t t' d d' u u' htext hsqueezed ht hd hlength =>
    obtain ⟨m, marks'', rfl, hm⟩ := hmarks'.exists_cons
    cases ht with
    | gap => exact absurd rfl hm
    | @letter _ e _ t t' hreads hblank' ht =>
      obtain ⟨rfl, rfl⟩ := List.cons.inj htext
      exact .short (blanks ++ c :: t) (' ' :: c :: t') d d' u u' (by rw [List.append_assoc]; rfl)
        (congrArg _ hsqueezed) (.gap hne hblanks hblank (.letter hreads hblank' ht)) hd
        (Nat.succ_lt_succ hlength)
  | nowhere hnone =>
    obtain ⟨squeezed', rfl⟩ := hspelling.exists_cons hblank
    refine .nowhere fun rest => ⟨?_, ?_⟩
    · rw [List.append_assoc]
      exact (spelledLength?_gap hne hblanks (hgap _)).trans
        (Option.map_eq_none_iff.2 (hnone rest).1)
    · have hspace : ∀ b ∈ [' '], isGap b := by decide
      exact (spelledLength?_gap (List.cons_ne_nil _ _) hspace (hgap _)).trans
        (Option.map_eq_none_iff.2 (hnone rest).2)

end Reach

namespace Spelling

variable {marks : List Mark} {text squeezed : List Char}

/-- How far other marks go in a spelled text. It does not matter whether the gaps are squeezed. -/
theorem compare (h : Spelling marks text squeezed) {marks' : List Mark} (hmarks' : Spaced marks') :
    Reach marks text squeezed marks' := by
  induction h generalizing marks' with
  | nil => exact .through [] marks' rfl rfl .nil
  | @letter m c marks text squeezed hreads hblank h ih =>
    cases marks' with
    | nil => exact .short [] [] c c text squeezed rfl rfl .nil rfl (Nat.succ_pos _)
    | cons m' marks' =>
      by_cases hm' : m' = .gap
      · subst hm'
        exact .nowhere fun rest => ⟨spelledLength?_gap_none (isGap_eq_false hblank),
          spelledLength?_gap_none (isGap_eq_false hblank)⟩
      · cases hreads' : m'.reads c with
        | false =>
          exact .nowhere fun rest => ⟨spelledLength?_cons_none hm' hreads',
            spelledLength?_cons_none hm' hreads'⟩
        | true => exact (ih hmarks'.tail).letter hreads' hblank
  | @gap blanks c marks text squeezed hne hblanks hblank h ih =>
    obtain ⟨b, blanks', rfl⟩ := List.exists_cons_of_ne_nil hne
    have hb := isBlank_of_isGap (hblanks b List.mem_cons_self)
    cases marks' with
    | nil =>
      refine .short [] [] b ' ' _ squeezed rfl rfl .nil ?_ (Nat.succ_pos _)
      rw [isLetter_of_isBlank hb, isLetter_of_isBlank (by decide)]
    | cons m' marks' =>
      by_cases hm' : m' = .gap
      · subst hm'
        exact (ih hmarks'.tail).gap hmarks' hne hblanks hblank h
      · -- a mark of a letter reads neither the first blank nor the space in its place
        have hreads : ∀ d, isBlank d → m'.reads d = false := by
          intro d hd
          cases hreads : m'.reads d with
          | false => rfl
          | true =>
            exact hd ▸ Mark.isBlank_of_reads (hmarks'.plain m' List.mem_cons_self) hreads
        exact .nowhere fun rest => ⟨spelledLength?_cons_none hm' (hreads b hb),
          spelledLength?_cons_none hm' (hreads ' ' (by decide))⟩

/-- The words of a spelled text, with spaces between them, are the squeezed text. -/
theorem intercalate_splitWords (h : Spelling marks text squeezed) :
    List.intercalate [' '] ((splitWords text).1 :: (splitWords text).2) = squeezed := by
  induction h with
  | nil => rfl
  | letter _ hblank _ ih =>
    simp only [splitWords, hblank, Bool.false_eq_true, if_false]
    rw [List.intercalate_cons_cons_left, ih]
  | @gap blanks c marks text squeezed hne hblanks hblank h ih =>
    rw [splitWords_append hne fun b hb => isBlank_of_isGap (hblanks b hb), words_cons hblank,
      List.intercalate_cons_cons, ih]
    rfl

/-- Squeezing a spelled text squeezes its gaps. -/
theorem squeeze_eq {c : Char} (h : Spelling marks (c :: text) squeezed) (hc : isBlank c = false) :
    squeeze (c :: text) = squeezed := by
  rw [squeeze, words_cons hc, h.intercalate_splitWords]

end Spelling

theorem spelledLength?_le {marks : List Mark} {text : List Char} {n : Nat} (hmarks : Spaced marks)
    (h : spelledLength? marks text = some n) : n ≤ text.length := by
  obtain ⟨spelled, squeezed, rest, rfl, -, rfl⟩ := Spelling.exists_of_spelledLength? hmarks h
  rw [List.length_append]
  exact Nat.le_add_right _ _

end Wireframe
