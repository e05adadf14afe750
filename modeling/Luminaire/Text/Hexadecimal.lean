/-!
# Hexadecimal digits

A byte is written as two uppercase digits, high half first. Reading accepts both cases, so the
written form is one of several readable ones: `byteOfDigits?_digitsOfByte` says that it is read
back as the same byte.
-/

namespace Luminaire

namespace Hexadecimal

/-- The value of a digit of either case. -/
def digitValue? (c : Char) : Option Nat :=
  if '0' ≤ c ∧ c ≤ '9' then some (c.toNat - '0'.toNat)
  else if 'a' ≤ c ∧ c ≤ 'f' then some (c.toNat - 'a'.toNat + 10)
  else if 'A' ≤ c ∧ c ≤ 'F' then some (c.toNat - 'A'.toNat + 10)
  else none

/-- The uppercase digit of a value below sixteen. -/
def digit (value : Nat) : Char :=
  if value < 10 then Char.ofNat ('0'.toNat + value) else Char.ofNat ('A'.toNat + (value - 10))

/-- The byte written by two digits, high half first. -/
def byteOfDigits? (high low : Char) : Option UInt8 := do
  let h ← digitValue? high
  let l ← digitValue? low
  return UInt8.ofNat (h * 16 + l)

/-- The two digits of a byte, high half first. -/
def digitsOfByte (b : UInt8) : List Char :=
  [digit (b.toNat / 16), digit (b.toNat % 16)]

@[simp] theorem length_digitsOfByte (b : UInt8) : (digitsOfByte b).length = 2 := rfl

theorem digitValue?_digit : ∀ value < 16, digitValue? (digit value) = some value := by
  decide

/-- The written form of a byte is read back as the byte. -/
theorem byteOfDigits?_digitsOfByte (b : UInt8) :
    byteOfDigits? (digit (b.toNat / 16)) (digit (b.toNat % 16)) = some b := by
  have hb : b.toNat < 256 := b.toNat_lt
  have hh := digitValue?_digit (b.toNat / 16) (by omega)
  have hl := digitValue?_digit (b.toNat % 16) (by omega)
  have hsum : b.toNat / 16 * 16 + b.toNat % 16 = b.toNat := by omega
  rw [byteOfDigits?, hh, hl]
  show some (UInt8.ofNat (b.toNat / 16 * 16 + b.toNat % 16)) = some b
  rw [hsum, UInt8.ofNat_toNat]

end Hexadecimal

end Luminaire
