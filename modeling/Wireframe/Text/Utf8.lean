/-!
# UTF-8

Reading characters from bytes. `Utf8.text?` gives the text that some bytes hold; there is none if
the bytes at any place are no character in its one form.
-/

namespace Wireframe.Utf8

/-- What the first byte of a character says: how many bytes follow, the bits it gives, and the range
    of the byte after it. -/
structure Lead where
  following : Nat
  bits : Nat
  least : Nat
  most : Nat

/-- The first byte of a character. Bytes that would begin an overlong form, a surrogate or a number
    that is no code point are left out, here or by the range of the next byte. -/
def lead? (b : Nat) : Option Lead :=
  if b < 0x80 then some ⟨0, b, 0x80, 0xbf⟩
  else if 0xc2 ≤ b && b ≤ 0xdf then some ⟨1, b - 0xc0, 0x80, 0xbf⟩
  else if b = 0xe0 then some ⟨2, b - 0xe0, 0xa0, 0xbf⟩
  else if b = 0xed then some ⟨2, b - 0xe0, 0x80, 0x9f⟩
  else if 0xe1 ≤ b && b ≤ 0xef then some ⟨2, b - 0xe0, 0x80, 0xbf⟩
  else if b = 0xf0 then some ⟨3, b - 0xf0, 0x90, 0xbf⟩
  else if 0xf1 ≤ b && b ≤ 0xf3 then some ⟨3, b - 0xf0, 0x80, 0xbf⟩
  else if b = 0xf4 then some ⟨3, b - 0xf0, 0x80, 0x8f⟩
  else none

/-- The character whose last bytes are still to come, and the rest. -/
def finish? : Nat → Nat → Nat → Nat → List UInt8 → Option (Char × List UInt8)
  | 0, bits, _, _, bytes => some (Char.ofNat bits, bytes)
  | _ + 1, _, _, _, [] => none
  | following + 1, bits, least, most, b :: rest =>
    if least ≤ b.toNat && b.toNat ≤ most then
      finish? following (64 * bits + (b.toNat - 0x80)) 0x80 0xbf rest
    else none

theorem finish?_length {following bits least most : Nat} {bytes rest : List UInt8} {c : Char}
    (h : finish? following bits least most bytes = some (c, rest)) :
    rest.length ≤ bytes.length := by
  induction following generalizing bits least most bytes with
  | zero => simp_all [finish?]
  | succ n ih =>
    cases bytes with
    | nil => simp [finish?] at h
    | cons b more =>
      simp only [finish?] at h
      split at h
      · exact Nat.le_succ_of_le (ih h)
      · simp at h

/-- The character that begins with a byte, and the rest. -/
def char? (b : UInt8) (rest : List UInt8) : Option (Char × List UInt8) :=
  (lead? b.toNat).bind fun l => finish? l.following l.bits l.least l.most rest

theorem char?_length {b : UInt8} {bytes rest : List UInt8} {c : Char}
    (h : char? b bytes = some (c, rest)) : rest.length ≤ bytes.length := by
  obtain ⟨_, _, h⟩ := Option.bind_eq_some_iff.1 h
  exact finish?_length h

/-- The text in some bytes. -/
def text? : List UInt8 → Option (List Char)
  | [] => some []
  | b :: bytes =>
    match h : char? b bytes with
    | some (c, rest) =>
      have := char?_length h
      (text? rest).map (c :: ·)
    | none => none
  termination_by bytes => bytes.length

end Wireframe.Utf8
