import Mathlib.Data.List.Basic
import Wireframe.Text.Quoted

/-!
# Texts that can be read back

A way of writing values down is *legible* (`IsLegible`) when a value can be told from any text that
begins with it, and so can the text that comes after it: no writing of a value goes on into the
writing of another one. Writings put one after the other are legible again, and so is a writing
that a mark ends which does not occur in it.

Legible are the decimal and the hexadecimal numbers with a mark after them, and a text in double
quotes (`isLegible_quoteWith`). Which characters are shown in it by the number of their code point
does not matter: `IsEscapeOf` allows it for every character.
-/

namespace Wireframe.Text

variable {α β : Type*} {write : α → List Char} {stop : Char}

/-! ## Writings -/

/-- Where a mark comes first in a text tells what stands before it, and what after. -/
theorem append_stop_inj {v w x y : List Char} (hv : stop ∉ v) (hw : stop ∉ w)
    (h : v ++ stop :: x = w ++ stop :: y) : v = w ∧ x = y := by
  -- the longer one of the two would contain the mark that comes after the shorter one
  obtain ⟨_ | ⟨c, more⟩, hlonger, hrest⟩ | ⟨_ | ⟨c, more⟩, hlonger, hrest⟩ :=
    List.append_eq_append_iff.1 h
  · exact ⟨by simpa using hlonger.symm, (List.cons.inj hrest).2⟩
  · obtain ⟨rfl, -⟩ := List.cons.inj hrest
    exact absurd (hlonger ▸ List.mem_append_right _ List.mem_cons_self) hw
  · exact ⟨by simpa using hlonger, (List.cons.inj hrest).2.symm⟩
  · obtain ⟨rfl, -⟩ := List.cons.inj hrest
    exact absurd (hlonger ▸ List.mem_append_right _ List.mem_cons_self) hv

/-- What is written can be read back from the front of every text, and what follows it too. -/
def IsLegible (write : α → List Char) : Prop :=
  ∀ ⦃a b : α⦄ ⦃x y : List Char⦄, write a ++ x = write b ++ y → a = b ∧ x = y

namespace IsLegible

/-- A mark that no value contains ends the writing of a value. -/
theorem ended (hwrite : Function.Injective write) (hstop : ∀ a, stop ∉ write a) :
    IsLegible fun a => write a ++ [stop] := by
  intro a b x y h
  simp only [List.append_assoc, List.singleton_append] at h
  obtain ⟨hvalue, hrest⟩ := append_stop_inj (hstop a) (hstop b) h
  exact ⟨hwrite hvalue, hrest⟩

/-- One value is written after the other. -/
theorem append {after : β → List Char} (h : IsLegible write) (hafter : IsLegible after) :
    IsLegible fun p : α × β => write p.1 ++ after p.2 := by
  rintro ⟨a, b⟩ ⟨c, d⟩ x y heq
  simp only [List.append_assoc] at heq
  obtain ⟨rfl, hrest⟩ := h heq
  obtain ⟨rfl, rfl⟩ := hafter hrest
  exact ⟨rfl, rfl⟩

/-- A fixed text before a value does no harm. -/
theorem after (lead : List Char) (h : IsLegible write) : IsLegible fun a => lead ++ write a := by
  intro a b x y heq
  simp only [List.append_assoc, List.append_cancel_left_eq] at heq
  exact h heq

/-- A fixed text after a value does no harm. -/
theorem before (tail : List Char) (h : IsLegible write) : IsLegible fun a => write a ++ tail := by
  intro a b x y heq
  simp only [List.append_assoc] at heq
  obtain ⟨rfl, hrest⟩ := h heq
  exact ⟨rfl, List.append_cancel_left hrest⟩

/-- A value may be written by way of another one that determines it. -/
theorem comp {view : β → α} (h : IsLegible write) (hview : Function.Injective view) :
    IsLegible (write ∘ view) := fun _ _ _ _ heq =>
  ⟨hview (h heq).1, (h heq).2⟩

/-- Values are written one after the other up to a mark with which no value begins. -/
theorem closed (h : IsLegible write) (hstop : ∀ a x y, write a ++ x ≠ stop :: y) :
    IsLegible fun as : List α => as.flatMap write ++ [stop] := by
  intro as
  induction as with
  | nil =>
    rintro (_ | ⟨b, bs⟩) x y heq
    · exact ⟨rfl, (List.cons.inj heq).2⟩
    · simp only [List.flatMap_cons, List.append_assoc] at heq
      exact (hstop _ _ _ heq.symm).elim
  | cons a as ih =>
    rintro (_ | ⟨b, bs⟩) x y heq <;> simp only [List.flatMap_cons, List.append_assoc] at heq
    · exact (hstop _ _ _ heq).elim
    · obtain ⟨rfl, hrest⟩ := h heq
      obtain ⟨rfl, rfl⟩ := ih (by simpa using hrest)
      exact ⟨rfl, rfl⟩

/-- Values written one after the other up to the end of the text can all be read back. -/
theorem flatMap_injective (h : IsLegible write) (hwrite : ∀ a, write a ≠ []) :
    Function.Injective fun as : List α => as.flatMap write := by
  intro as
  induction as with
  | nil =>
    rintro (_ | ⟨b, bs⟩) heq
    · rfl
    · simp [hwrite b] at heq
  | cons a as ih =>
    rintro (_ | ⟨b, bs⟩) heq
    · simp [hwrite a] at heq
    · simp only [List.flatMap_cons] at heq
      obtain ⟨rfl, hrest⟩ := h heq
      rw [ih hrest]

end IsLegible

/-! ## Numbers -/

section Digits

variable {base n : Nat}

/-- The sixteen digits are different characters. -/
theorem digitChar_inj {i j : Nat} (hi : i < 16) (hj : j < 16) (h : i.digitChar = j.digitChar) :
    i = j := by
  have hall : ∀ i < 16, ∀ j < 16, Nat.digitChar i = Nat.digitChar j → i = j := by decide
  exact hall i hi j hj h

theorem exists_digitChar_of_mem (hbase : 1 < base) {c : Char} (h : c ∈ Nat.toDigits base n) :
    ∃ i < base, c = i.digitChar := by
  induction n using Nat.strongRecOn with
  | _ n ih =>
    rw [Nat.toDigits_eq_if hbase] at h
    split at h
    · exact ⟨n, ‹_›, by simpa using h⟩
    · rcases List.mem_append.1 h with hfront | hlast
      · exact ih (n / base) (Nat.div_lt_self (by omega) hbase) hfront
      · exact ⟨n % base, Nat.mod_lt _ (by omega), by simpa using hlast⟩

/-- A number can be told from its digits: the last one is its remainder, the others are
    those of its quotient. -/
theorem toDigits_injective (hbase : 1 < base) (hsixteen : base ≤ 16) :
    Function.Injective (Nat.toDigits base) := by
  intro m
  induction m using Nat.strongRecOn with
  | _ m ih =>
    intro n h
    rw [Nat.toDigits_eq_if hbase, Nat.toDigits_eq_if hbase (n := n)] at h
    split at h <;> split at h
    · exact digitChar_inj (by omega) (by omega) (by simpa using h)
    · simp [List.cons_eq_append_iff, Nat.toDigits_ne_nil] at h
    · simp [List.append_eq_singleton_iff, Nat.toDigits_ne_nil] at h
    · have hm := Nat.mod_lt m (y := base) (by omega)
      have hn := Nat.mod_lt n (y := base) (by omega)
      obtain ⟨hfront, hlast⟩ := List.append_inj' h rfl
      have hdigit : m % base = n % base :=
        digitChar_inj (by omega) (by omega) (by simpa using hlast)
      have hrest : m / base = n / base := ih _ (Nat.div_lt_self (by omega) hbase) hfront
      rw [← Nat.div_add_mod m base, ← Nat.div_add_mod n base, hdigit, hrest]

/-- A mark that is no digit ends a number. -/
theorem isLegible_toDigits (hbase : 1 < base) (hsixteen : base ≤ 16)
    (hstop : ∀ i < base, stop ≠ i.digitChar) :
    IsLegible fun n => Nat.toDigits base n ++ [stop] :=
  .ended (toDigits_injective hbase hsixteen) fun _ hmem =>
    have ⟨i, hi, heq⟩ := exists_digitChar_of_mem hbase hmem
    hstop i hi heq

end Digits

/-! ## Characters and quoted texts -/

/-- The characters that are escaped by name, each with its name. -/
def escapeNames : List (Char × Char) :=
  [('\x00', '0'), ('\t', 't'), ('\r', 'r'), ('\n', 'n'), ('"', '"'), ('\\', '\\')]

/-- The ways to write a character between double quotes: by its name, if it has one; as it is, if it
    has none; or by the number of its code point, whatever the character. -/
inductive IsEscapeOf (c : Char) : List Char → Prop
  | named {name : Char} : (c, name) ∈ escapeNames → IsEscapeOf c ['\\', name]
  | itself : c ≠ '\\' → c ≠ '"' → c ≠ '\n' → IsEscapeOf c [c]
  | numbered : IsEscapeOf c (['\\', 'u', '{'] ++ hexadecimal c.toNat ++ ['}'])

/-- A character as it is written between double quotes, if all those of some set are shown by the
    numbers of their code points that have no names. -/
def escapeCharWith (numbered : Char → Bool) (c : Char) : List Char :=
  match escapeNames.lookup c with
  | some name => ['\\', name]
  | none => if numbered c then ['\\', 'u', '{'] ++ hexadecimal c.toNat ++ ['}'] else [c]

theorem isEscapeOf_escapeCharWith (numbered : Char → Bool) (c : Char) :
    IsEscapeOf c (escapeCharWith numbered c) := by
  unfold escapeCharWith
  split
  · next name hname =>
    obtain ⟨front, back, hnames, -⟩ := List.lookup_eq_some_iff.1 hname
    exact .named (hnames ▸ List.mem_append_right _ List.mem_cons_self)
  · next hname =>
    split
    · exact .numbered
    · have hnone : ∀ p ∈ escapeNames, c ≠ p.1 := by simpa using hname
      exact .itself (hnone ('\\', '\\') (by decide)) (hnone ('"', '"') (by decide))
        (hnone ('\n', 'n') (by decide))

theorem escapeChar_eq (c : Char) : escapeChar c = escapeCharWith (!isShown ·) c := by
  unfold escapeChar
  split
  case h_7 hnul htab hreturn hfeed hquote hback =>
    have hname : escapeNames.lookup c = none := by
      simp only [escapeNames, List.lookup_eq_none_iff, List.forall_mem_cons, bne_iff_ne]
      exact ⟨hnul, htab, hreturn, hfeed, hquote, hback, List.forall_mem_nil _⟩
    rw [escapeCharWith, hname]
    cases isShown c <;> rfl
  all_goals rfl

namespace IsEscapeOf

variable {c d : Char} {v w x y : List Char}

theorem lineFeed_notMem (h : IsEscapeOf c v) : '\n' ∉ v := by
  cases h with
  | named hname =>
    have hall : ∀ p ∈ escapeNames, '\n' ≠ p.2 := by decide
    simpa using hall _ hname
  | itself _ _ hfeed => simpa using hfeed.symm
  | numbered =>
    have hall : ∀ i < 16, '\n' ≠ Nat.digitChar i := by decide
    have hdigits : '\n' ∉ hexadecimal c.toNat := fun hmem =>
      have ⟨i, hi, heq⟩ := exists_digitChar_of_mem (by decide) hmem
      hall i hi heq
    simpa using hdigits

/-- No character is written with a double quote in front. -/
theorem not_quote (h : IsEscapeOf c v) : v ++ x ≠ '"' :: y := by
  cases h with
  | named | numbered => simp
  | itself _ hquote _ => simp [hquote]

/-- A character escaped in one way or another can be told from what begins with it. -/
theorem unique (hv : IsEscapeOf c v) (hw : IsEscapeOf d w) (heq : v ++ x = w ++ y) :
    c = d ∧ x = y := by
  -- no name of an escape is the mark of a numbered one, and no two names are the same
  have hnames : ∀ p ∈ escapeNames, p.2 ≠ 'u' ∧ ∀ q ∈ escapeNames, p.2 = q.2 → p.1 = q.1 := by
    decide
  cases hv with
  | named hc =>
    cases hw with
    | named hd =>
      simp only [List.cons_append, List.nil_append, List.cons.injEq, true_and] at heq
      exact ⟨(hnames _ hc).2 _ hd heq.1, heq.2⟩
    | itself hback => simp [hback.symm] at heq
    | numbered => simp [(hnames _ hc).1] at heq
  | itself hback =>
    cases hw with
    | named | numbered => simp [hback] at heq
    | itself => simpa using heq
  | numbered =>
    cases hw with
    | named hd => simp [(hnames _ hd).1.symm] at heq
    | itself hback => simp [hback.symm] at heq
    | numbered =>
      have hcode : IsLegible fun n => hexadecimal n ++ ['}'] :=
        isLegible_toDigits (by decide) (by decide) (by decide)
      obtain ⟨hnumber, hrest⟩ := hcode (by simpa using heq)
      exact ⟨Char.toNat_inj.1 hnumber, hrest⟩

end IsEscapeOf

section Quoted

variable {numbered : Char → Bool}

/-- A text between double quotes, with all those characters of a set that have no names shown by the
    numbers of their code points. -/
def quoteWith (numbered : Char → Bool) (text : List Char) : List Char :=
  '"' :: text.flatMap (escapeCharWith numbered) ++ ['"']

theorem quote_eq (text : List Char) : quote text = quoteWith (!isShown ·) text := by
  rw [quote, quoteWith, funext escapeChar_eq]

/-- A text in double quotes can be told from what begins with it. -/
theorem isLegible_quoteWith : IsLegible (quoteWith numbered) := by
  have hescape : IsLegible (escapeCharWith numbered) := fun c d _ _ =>
    (isEscapeOf_escapeCharWith numbered c).unique (isEscapeOf_escapeCharWith numbered d)
  exact .after ['"'] (hescape.closed fun c _ _ => (isEscapeOf_escapeCharWith numbered c).not_quote)

/-- There is no line feed in a text in double quotes. -/
theorem lineFeed_notMem_quoteWith (text : List Char) : '\n' ∉ quoteWith numbered text := by
  have hescape : ∀ c ∈ text, '\n' ∉ escapeCharWith numbered c := fun c _ =>
    (isEscapeOf_escapeCharWith numbered c).lineFeed_notMem
  simpa [quoteWith] using hescape

end Quoted

end Wireframe.Text
