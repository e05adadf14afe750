/-!
# Decimal bytes

Bytes are exchanged as decimal numerals of a limited number of digits. Reading keeps the value
read so far as a byte and gives up as soon as a digit would push it past `255`: leading zeros
never do, and a value that has become too large stays too large, so nothing is lost by giving up
early.
-/

namespace Luminaire

namespace Decimal

/-- The byte read so far with one more digit behind it, unless that is no digit or exceeds `255`. -/
def append? (value : UInt8) (c : Char) : Option UInt8 :=
  if c.isDigit then
    let next := value.toNat * 10 + (c.toNat - '0'.toNat)
    if next ≤ 255 then some (UInt8.ofNat next) else none
  else none

/-- The byte written by between one and `maxDigits` decimal digits. -/
def readByte? (maxDigits : Nat) (cs : List Char) : Option UInt8 :=
  if cs.isEmpty || maxDigits < cs.length then none else cs.foldlM append? 0

/-- The decimal numeral of a byte, without leading zeros. -/
def writeByte (value : UInt8) : String := Nat.repr value.toNat

theorem append?_eq_some_iff (value : UInt8) (c : Char) (next : UInt8) :
    append? value c = some next ↔
      c.isDigit = true ∧ value.toNat * 10 + (c.toNat - '0'.toNat) = next.toNat := by
  have hn := next.toNat_lt
  rw [append?]
  split
  next hd =>
    simp only [hd, true_and]
    split
    next hle =>
      rw [Option.some.injEq, ← UInt8.toNat_inj, UInt8.toNat_ofNat']
      omega
    next hgt =>
      simp only [reduceCtorEq, false_iff]
      omega
  next hd => simp [hd]

@[simp] theorem readByte?_nil (maxDigits : Nat) : readByte? maxDigits [] = none := rfl

theorem readByte?_of_length_le {maxDigits : Nat} {cs : List Char} (hne : cs ≠ [])
    (hlen : cs.length ≤ maxDigits) : readByte? maxDigits cs = cs.foldlM append? 0 := by
  have hempty : cs.isEmpty = false := by
    cases cs with
    | nil => exact absurd rfl hne
    | cons _ _ => rfl
  rw [readByte?, hempty, if_neg]
  simp only [Bool.false_or, decide_eq_true_eq]
  omega

theorem readByte?_of_lt_length {maxDigits : Nat} {cs : List Char} (hlen : maxDigits < cs.length) :
    readByte? maxDigits cs = none := by
  rw [readByte?, if_pos]
  simp [hlen]

end Decimal

end Luminaire
