import Luminaire.Color.Basic
import Luminaire.Text.Hexadecimal

/-!
# The six-digit notation of a color

A color is written as `RRGGBB`: two hexadecimal digits for each of red, green and blue. The
written digits are uppercase; both cases are read, and nothing but six digits is.
-/

namespace Luminaire

namespace Color

open Hexadecimal

/-- The number of digits in the notation of a color. -/
def notationLength : Nat := 6

/-- The color written by a text of exactly six hexadecimal digits. -/
def ofNotation? (text : String) : Option Color :=
  match text.toList with
  | [r₁, r₀, g₁, g₀, b₁, b₀] => do
    let red ← byteOfDigits? r₁ r₀
    let green ← byteOfDigits? g₁ g₀
    let blue ← byteOfDigits? b₁ b₀
    return ⟨red, green, blue⟩
  | _ => none

/-- The digits of a color, uppercase. -/
def digits (c : Color) : List Char :=
  digitsOfByte c.red ++ digitsOfByte c.green ++ digitsOfByte c.blue

/-- The color as six uppercase digits. -/
def toNotation (c : Color) : String := String.ofList c.digits

@[simp] theorem length_digits (c : Color) : c.digits.length = notationLength := rfl

@[simp] theorem toList_toNotation (c : Color) : c.toNotation.toList = c.digits := by
  simp [toNotation]

/-- The written form of a color is read back as the color. -/
theorem ofNotation?_toNotation (c : Color) : ofNotation? c.toNotation = some c := by
  rw [ofNotation?, toList_toNotation]
  simp [digits, digitsOfByte, byteOfDigits?_digitsOfByte]

end Color

end Luminaire
