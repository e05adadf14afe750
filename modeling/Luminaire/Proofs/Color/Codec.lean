import Luminaire.Proofs.Text.Numerals
import Luminaire.Proofs.Text.Octets

/-!
# Colors and their notation

The reader of colors accepts six hexadecimal digits of either case and nothing else. As every digit
is ASCII, that is a condition on the bytes of the text: there are six, and each of them is the code
of a digit. So a text of six bytes that are fewer characters is refused, and so is one with a sign.
Writing a color that was read gives the text back with its letters in uppercase, and reading what
was written gives the color back.
-/

namespace Luminaire

namespace Hexadecimal

/-- The byte is the code of a hexadecimal digit of either case. -/
def IsDigitOctet (b : UInt8) : Prop :=
  '0'.toUInt8 ≤ b ∧ b ≤ '9'.toUInt8 ∨ 'a'.toUInt8 ≤ b ∧ b ≤ 'f'.toUInt8 ∨
    'A'.toUInt8 ≤ b ∧ b ≤ 'F'.toUInt8

theorem IsDigitOctet.toNat_lt {b : UInt8} (h : IsDigitOctet b) : b.toNat < 128 := by
  rcases h with h | h | h
  · exact toNat_lt_of_le_octet (by decide) h.2
  · exact toNat_lt_of_le_octet (by decide) h.2
  · exact toNat_lt_of_le_octet (by decide) h.2

theorem isDigit_iff_isDigitOctet (c : Char) :
    IsDigit c ↔ c.toNat < 128 ∧ IsDigitOctet c.toUInt8 := by
  have hdecimal := range_iff_octet '0' '9' (by decide) (by decide) c
  have hlower := range_iff_octet 'a' 'f' (by decide) (by decide) c
  have hupper := range_iff_octet 'A' 'F' (by decide) (by decide) c
  rw [IsDigit, IsDigitOctet, hdecimal, hlower, hupper, ← and_or_left, ← and_or_left]

end Hexadecimal

namespace Color

open Hexadecimal

theorem isNotation_iff_length (text : String) :
    IsNotation text ↔ text.toList.length = 6 ∧ ∀ d ∈ text.toList, IsDigit d :=
  ⟨fun h => ⟨h.length_eq, h.digits⟩, fun h => ⟨h.1, h.2⟩⟩

theorem isNotation_iff_octets (text : String) :
    IsNotation text ↔ (octets text).length = 6 ∧ ∀ b ∈ octets text, IsDigitOctet b :=
  (isNotation_iff_length text).trans
    (length_and_forall_octets_iff (fun _ h => IsDigitOctet.toNat_lt h) isDigit_iff_isDigitOctet
      (fun length => length = 6) text).symm

theorem isSome_ofNotation?_iff (text : String) :
    (ofNotation? text).isSome = true ↔ IsNotation text := by
  rw [Option.isSome_iff_ne_none, ne_eq, ofNotation?_eq_none_iff, not_not]

theorem toNotation_of_ofNotation? {text : String} {c : Color} (h : ofNotation? text = some c) :
    c.toNotation = text.map Char.toUpper := by
  apply String.toList_injective
  rw [toList_toNotation, String.toList_map, ((ofNotation?_eq_some_iff text c).1 h).2]

/-- A text is read as a color exactly if it has six bytes, each of them the code of a hexadecimal
digit of either case; with a character beyond ASCII, a sign or a number sign it is none. A color
that was read is written as the text with its letters in uppercase. Every color is written with six
characters, in six bytes, and read back as what it was. -/
theorem notation_codec (text : String) (c : Color) :
    ((ofNotation? text).isSome = true ↔
      (octets text).length = 6 ∧ ∀ b ∈ octets text, IsDigitOctet b) ∧
    ((ofNotation? text).isSome = true ↔ text.length = 6 ∧ ∀ d ∈ text.toList, IsDigit d) ∧
    (∀ d ∈ text.toList, 128 ≤ d.toNat ∨ d = '+' ∨ d = '-' ∨ d = '#' → ofNotation? text = none) ∧
    (ofNotation? text = some c → c.toNotation = text.map Char.toUpper) ∧
    c.toNotation.length = 6 ∧ (octets c.toNotation).length = 6 ∧
    ofNotation? c.toNotation = some c := by
  have hread := ofNotation?_toNotation c
  have hwritten := ((ofNotation?_eq_some_iff _ c).1 hread).1
  refine ⟨(isSome_ofNotation?_iff text).trans (isNotation_iff_octets text),
    (isSome_ofNotation?_iff text).trans ?_, fun d hd hother => ?_, toNotation_of_ofNotation?, ?_,
    ((isNotation_iff_octets _).1 hwritten).1, hread⟩
  · rw [← String.length_toList]
    exact isNotation_iff_length text
  · refine (ofNotation?_eq_none_iff text).2 fun h => ?_
    have hdigit := h.digits d hd
    rcases hother with hbeyond | rfl | rfl | rfl
    · exact Nat.not_lt_of_le hbeyond (toNat_lt_of_isDigit hdigit)
    · exact absurd hdigit (by decide)
    · exact absurd hdigit (by decide)
    · exact absurd hdigit (by decide)
  · rw [← String.length_toList]
    exact hwritten.length_eq

/-- Letters of both cases, and a text of six bytes that has five characters. -/
theorem notation_codec_mixed :
    ofNotation? "0a0B0c" = some ⟨10, 11, 12⟩ ∧ (⟨10, 11, 12⟩ : Color).toNotation = "0A0B0C" ∧
      (octets "ff8é0").length = 6 ∧ ofNotation? "ff8é0" = none := by
  have hread : ofNotation? "0a0B0c" = some ⟨10, 11, 12⟩ := by decide +kernel
  obtain ⟨-, -, -, hwritten, -⟩ := notation_codec "0a0B0c" ⟨10, 11, 12⟩
  obtain ⟨-, -, hrefused, -⟩ := notation_codec "ff8é0" ⟨0, 0, 0⟩
  refine ⟨hread, (hwritten hread).trans (by decide +kernel), by decide +kernel, ?_⟩
  exact hrefused 'é' (by decide +kernel) (Or.inl (by decide))

end Color

end Luminaire
