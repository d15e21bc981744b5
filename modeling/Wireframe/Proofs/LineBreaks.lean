import Mathlib.Data.List.Forall2
import Wireframe.Proofs.Detection
import Wireframe.Proofs.View

/-!
# Line breaks

A text is read alike whether its lines end in line feeds or in carriage returns and line feeds.

* `SameLines`: two texts with the same lines, each with one line break or the other after it. They
  are cut into pieces that are alike (`SameLines.alike`), line by line, as a line is cut in the same
  way before either line break (`Locale.cut_lineBreak`), and the same locale is detected in them
  (`SameLines.detect?_eq`).
* `Reading.viewed_withReturns`: so a text without carriage returns is read alike when one is put
  before each of its line feeds, and what is wrong with it is reported at the same positions.
-/

namespace Wireframe

open Text

/-! ## Texts with the same lines -/

/-- Two texts that are the same but for the line breaks between their lines. -/
inductive SameLines : List Char → List Char → Prop
  | last {line : List Char} : '\n' ∉ line → SameLines line line
  | line {line text text' : List Char} {b b' : LineBreak} :
    '\n' ∉ line → b.Fits line → b'.Fits line → SameLines text text' →
    SameLines (line ++ (b.chars ++ text)) (line ++ (b'.chars ++ text'))

theorem LineBreak.exists_front (b : LineBreak) :
    ∃ front, b.chars = front ++ ['\n'] ∧ '\n' ∉ front := by
  cases b
  · exact ⟨[], rfl, List.not_mem_nil⟩
  · exact ⟨['\r'], rfl, by decide⟩

namespace SameLines

variable {text text' : List Char}

theorem refl_nil : SameLines [] [] :=
  last List.not_mem_nil

/-- A character other than those of line breaks can be put in front. -/
theorem cons {c : Char} (hc : Shape.isBreak c = false) (h : SameLines text text') :
    SameLines (c :: text) (c :: text') := by
  have hfeed : '\n' ≠ c := by
    rintro rfl
    cases hc
  have hfits : ∀ {line : List Char} {b : LineBreak}, b.Fits line → b.Fits (c :: line) := by
    intro line b hb hlast
    cases line with
    | nil =>
      obtain rfl : c = '\r' := Option.some.inj hlast
      cases hc
    | cons d line => exact hb (by rwa [List.getLast?_cons_cons] at hlast)
  cases h with
  | last hline => exact last (List.not_mem_cons_of_ne_of_not_mem hfeed hline)
  | line hline hb hb' h =>
    exact line (List.not_mem_cons_of_ne_of_not_mem hfeed hline) (hfits hb) (hfits hb') h

/-- A line feed can be added to both texts. -/
theorem concat (h : SameLines text text') : SameLines (text ++ ['\n']) (text' ++ ['\n']) := by
  induction h with
  | @last l hline =>
    exact line hline (LineBreak.fits_lineFeed l) (LineBreak.fits_lineFeed l) refl_nil
  | line hline hb hb' _ ih =>
    simp only [List.append_assoc]
    exact line hline hb hb' (by simpa only [List.append_assoc] using ih)

/-- The last line of both texts has ended, or of neither. -/
theorem endsLine_iff (h : SameLines text text') :
    (text = [] ∨ text.getLast? = some '\n') ↔ (text' = [] ∨ text'.getLast? = some '\n') := by
  have hline : ∀ (line : List Char) (b : LineBreak) (text : List Char),
      (line ++ (b.chars ++ text) = [] ∨ (line ++ (b.chars ++ text)).getLast? = some '\n') ↔
        (text = [] ∨ text.getLast? = some '\n') := by
    intro line b text
    obtain ⟨front, hfront, -⟩ := b.exists_front
    rw [hfront, List.getLast?_append, List.append_assoc, List.getLast?_append]
    cases text with
    | nil => simp
    | cons c text => simp
  induction h with
  | last => rfl
  | line _ _ _ _ ih =>
    rw [hline, hline]
    exact ih

theorem endLastLine (h : SameLines text text') :
    SameLines (Wireframe.endLastLine text) (Wireframe.endLastLine text') := by
  have hended : ∀ text : List Char, Wireframe.endLastLine text =
      if text = [] ∨ text.getLast? = some '\n' then text else text ++ ['\n'] := by
    intro text
    simp only [Wireframe.endLastLine, Bool.or_eq_true, List.isEmpty_iff, decide_eq_true_eq]
  rw [hended, hended]
  by_cases hlast : text = [] ∨ text.getLast? = some '\n'
  · rwa [if_pos hlast, if_pos (h.endsLine_iff.1 hlast)]
  · rw [if_neg hlast, if_neg (mt h.endsLine_iff.2 hlast)]
    exact h.concat

theorem source (h : SameLines text text') (o : ReadingOptions) :
    SameLines (o.source text) (o.source text') := by
  unfold ReadingOptions.source
  split
  · exact h.endLastLine
  · exact h

/-- Texts with the same lines are cut alike. -/
theorem alike (h : SameLines text text') (v : View) (locale : Locale) :
    Piece.Alike v (locale.pieces text) (locale.pieces text') := by
  induction h with
  | last => exact .refl v _
  | @line l text text' b b' hline hb hb' _ ih =>
    obtain ⟨pieces, tail, -, htail, hcut⟩ := locale.cut_lineBreak hline
    have hend : ∀ b : LineBreak, ∃ front, tail ++ b.chars = front ++ ['\n'] ∧ '\n' ∉ front := by
      intro b
      obtain ⟨front, hfront, hfeed⟩ := b.exists_front
      refine ⟨tail ++ front, by rw [hfront, List.append_assoc], ?_⟩
      exact List.not_mem_append htail hfeed
    obtain ⟨front, hfront, hfeed⟩ := hend b
    obtain ⟨front', hfront', hfeed'⟩ := hend b'
    rw [Locale.pieces, Locale.pieces, hcut b hb, hcut b' hb', hfront, hfront']
    exact (Piece.Alike.lineEnd hfeed hfeed' ih).append

/-- In texts with the same lines the same locale is detected. -/
theorem detect?_eq (h : SameLines text text') : Locale.detect? text = Locale.detect? text' := by
  have hskip : ∀ (line : List Char) (b : LineBreak) (text : List Char),
      Locale.detect? (line ++ (b.chars ++ text)) =
        (Locale.detect? line).or (Locale.detect? text) := by
    intro line b text
    have hquiet : Locale.detect? (b.chars ++ text) = Locale.detect? text :=
      Locale.detect?_quiet fun c hc => isLetter_of_isBreak (b.isBreak_of_mem hc)
    rw [Locale.detect?_append, hquiet]
    obtain ⟨c, more, hchars, hc⟩ := b.exists_cons
    intro _ _ _
    rw [hchars]
    exact .inr fun d hd => Option.some.inj hd ▸ isLetter_of_isBreak hc
  induction h with
  | last => rfl
  | line _ _ _ _ ih => rw [hskip, hskip, ih]

theorem locale?_eq (h : SameLines text text') (o : ReadingOptions) :
    o.locale? text = o.locale? text' := by
  unfold ReadingOptions.locale?
  split
  · rfl
  · exact h.detect?_eq

/-- Texts with the same lines are read alike. -/
theorem viewed_ofText (h : SameLines text text') (v : View) (o : ReadingOptions) :
    (Reading.ofText o text).viewed v = (Reading.ofText o text').viewed v := by
  have hsource := h.source o
  unfold Reading.ofText
  dsimp only
  rw [hsource.locale?_eq o]
  split
  · exact Reading.viewed_congr (Lexing.viewed_congr (hsource.alike v _)) o.errorLimit
  · rfl

end SameLines

/-! ## Carriage returns before line feeds -/

/-- A text with a carriage return before each line feed. -/
def withReturns : List Char → List Char
  | [] => []
  | c :: rest => if c = '\n' then '\r' :: '\n' :: withReturns rest else c :: withReturns rest

theorem sameLines_withReturns {text : List Char} (h : '\r' ∉ text) :
    SameLines (withReturns text) text := by
  induction text with
  | nil => exact .refl_nil
  | cons c rest ih =>
    obtain ⟨hc, hrest⟩ := not_or.1 (mt List.mem_cons.2 h)
    rw [withReturns]
    split
    · next hfeed =>
      subst hfeed
      have hempty : ∀ b : LineBreak, b.Fits [] := fun _ => nofun
      exact .line List.not_mem_nil (hempty .returnFeed) (hempty .lineFeed) (ih hrest)
    · next hfeed =>
      refine .cons ?_ (ih hrest)
      simp [Shape.isBreak, Ne.symm hc, hfeed]

/-- Whether two lines for the reader begin with the same position. -/
def SamePosition (line line' : String) : Prop :=
  ∃ (p : Position) (message message' : String),
    line = p.display ++ ": " ++ message ∧ line' = p.display ++ ": " ++ message'

namespace Reading

/-- Of what is seen alike, with its positions, the faults are reported at the same positions. -/
theorem forall₂_diagnostics {r r' : Reading} (h : r.viewed .positions = r'.viewed .positions) :
    List.Forall₂ SamePosition r.diagnostics r'.diagnostics := by
  have hmap : ∀ {α : Type} {viewed : α → α} {range : α → Range} {message : α → String}
      {errors errors' : List α}, errors.map viewed = errors'.map viewed →
      (∀ e, (range (viewed e)).start = (range e).start) → List.Forall₂ SamePosition
        (errors.map fun e => (range e).start.display ++ ": " ++ message e)
        (errors'.map fun e => (range e).start.display ++ ": " ++ message e) := by
    intro α viewed range message errors errors' h hstart
    rw [← List.forall₂_eq_eq_eq, List.forall₂_map_left_iff, List.forall₂_map_right_iff] at h
    rw [List.forall₂_map_left_iff, List.forall₂_map_right_iff]
    refine h.imp fun e e' heq => ⟨(range e).start, message e, message e', rfl, ?_⟩
    rw [← hstart e, heq, hstart e']
  cases r <;> cases r' <;> simp only [viewed, reduceCtorEq] at h
  · exact .nil
  · exact hmap (lexErrors.inj h) fun _ => rfl
  · exact hmap (parseErrors.inj h).2.1 fun _ => rfl

/-- A text without carriage returns is read alike when each of its line feeds gets one. -/
theorem viewed_withReturns {text : List Char} (h : '\r' ∉ text) (o : ReadingOptions) :
    o.locale? (o.source (withReturns text)) = o.locale? (o.source text) ∧
      (∀ locale, (Lexing.ofText locale (o.source (withReturns text))).viewed .positions =
        (Lexing.ofText locale (o.source text)).viewed .positions) ∧
      (ofText o (withReturns text)).viewed .positions = (ofText o text).viewed .positions ∧
      List.Forall₂ SamePosition (ofText o (withReturns text)).diagnostics
        (ofText o text).diagnostics := by
  have hlines := sameLines_withReturns h
  have hread := hlines.viewed_ofText .positions o
  exact ⟨(hlines.source o).locale?_eq o,
    fun locale => Lexing.viewed_congr ((hlines.source o).alike .positions locale), hread,
    forall₂_diagnostics hread⟩

theorem viewed_withReturns_page : '\r' ∉ "Page: A\n// b\n* \"c\\\n".toList ∧
    withReturns "Page: A\n// b\n* \"c\\\n".toList = "Page: A\r\n// b\r\n* \"c\\\r\n".toList ∧
      (ofText .standard (withReturns "Page: A\n// b\n* \"c\\\n".toList)).viewed .positions =
        (ofText .standard "Page: A\n// b\n* \"c\\\n".toList).viewed .positions :=
  have hreturn : '\r' ∉ "Page: A\n// b\n* \"c\\\n".toList := by decide
  ⟨hreturn, by decide, (viewed_withReturns hreturn .standard).2.2.1⟩

end Reading

end Wireframe
