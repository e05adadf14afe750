import Luminaire.Proofs.Message.Report
import Luminaire.Proofs.Text.Octets

/-!
# Decimal numerals and the range of a byte

A decimal numeral is read with two operations for each digit, and the reading ends at the first of
them whose result is no byte. `Octet.mul?` and `Octet.add?` are these operations, and
`Decimal.readExact?` the reader of bytes that is written with them. It gives the same answer as the
reader of characters, on every text (`Decimal.readExact?_octets`).

What a row of digits denotes is a natural number without bound. It does not depend on zeros in
front, which also never take the value read so far out of range, and it is at least what any front
of the row denotes. So what is given up early is exactly what denotes no byte.
-/

namespace Luminaire

namespace Octet

/-- The byte for a number, if it is in range. -/
def ofNat? (m : Nat) : Option UInt8 := if m < UInt8.size then some (UInt8.ofNat m) else none

/-- The sum of two bytes, if it is a byte. -/
def add? (a b : UInt8) : Option UInt8 := ofNat? (a.toNat + b.toNat)

/-- The product of two bytes, if it is a byte. -/
def mul? (a b : UInt8) : Option UInt8 := ofNat? (a.toNat * b.toNat)

theorem ofNat?_eq_some_iff (m : Nat) (b : UInt8) : ofNat? m = some b ↔ m = b.toNat := by
  rw [ofNat?]
  split
  next h => rw [Option.some.injEq, ← UInt8.toNat_inj, UInt8.toNat_ofNat_of_lt' h]
  next h =>
    have hb := b.toNat_lt_size
    simp only [reduceCtorEq, false_iff]
    omega

end Octet

/-- A fold has no result if one of the elements never gives one. -/
theorem foldlM_eq_none_of_mem {α β : Type} {f : β → α → Option β} {l : List α} {a : α} (ha : a ∈ l)
    (hf : ∀ b, f b a = none) (b : β) : l.foldlM f b = none := by
  induction l generalizing b with
  | nil => cases ha
  | cons x l ih =>
      rw [List.foldlM_cons, Option.bind_eq_bind]
      rcases List.mem_cons.1 ha with rfl | ha
      · rw [hf b, Option.bind_none]
      · exact Option.bind_eq_none_iff.2 fun next _ => ih ha next

namespace Decimal

/-- The byte is the code of a decimal digit. -/
def IsDigitOctet (b : UInt8) : Prop := '0'.toUInt8 ≤ b ∧ b ≤ '9'.toUInt8

instance (b : UInt8) : Decidable (IsDigitOctet b) :=
  inferInstanceAs (Decidable ('0'.toUInt8 ≤ b ∧ b ≤ '9'.toUInt8))

theorem IsDigitOctet.toNat_lt {b : UInt8} (h : IsDigitOctet b) : b.toNat < 128 :=
  toNat_lt_of_le_octet (by decide) h.2

theorem isDigit_iff_isDigitOctet (c : Char) :
    c.isDigit = true ↔ c.toNat < 128 ∧ IsDigitOctet c.toUInt8 := by
  have hrange : c.isDigit = true ↔ '0' ≤ c ∧ c ≤ '9' := by
    simp [Char.isDigit, Char.le_def]
  exact hrange.trans (range_iff_octet '0' '9' (by decide) (by decide) c)

/-- The byte read so far with one more digit behind it. It is multiplied by ten and the value of
the digit added, and there is no result as soon as one of these is no byte. -/
def appendExact? (value b : UInt8) : Option UInt8 :=
  if IsDigitOctet b then (Octet.mul? value 10).bind fun tens => Octet.add? tens (b - '0'.toUInt8)
  else none

/-- The byte written by between one and `maxDigits` bytes, which are the codes of digits. -/
def readExact? (maxDigits : Nat) (bs : List UInt8) : Option UInt8 :=
  if bs.isEmpty || maxDigits < bs.length then none else bs.foldlM appendExact? 0

theorem appendExact?_eq_some_iff (value b next : UInt8) :
    appendExact? value b = some next ↔
      IsDigitOctet b ∧ value.toNat * 10 + (b.toNat - 48) = next.toNat := by
  rw [appendExact?]
  split
  next hdigit =>
    have hten : (10 : UInt8).toNat = 10 := rfl
    have hzero : ('0'.toUInt8).toNat = 48 := rfl
    have hvalue : (b - '0'.toUInt8).toNat = b.toNat - 48 :=
      UInt8.toNat_sub_of_le b _ hdigit.1
    have hnext := next.toNat_lt
    simp only [hdigit, true_and, Option.bind_eq_some_iff, Octet.mul?, Octet.add?,
      Octet.ofNat?_eq_some_iff, hten, hvalue]
    constructor
    · rintro ⟨tens, htens, hsum⟩
      rw [htens, hsum]
    · intro hsum
      -- the product is at most the sum, so it is a byte if the sum is
      obtain ⟨tens, htens⟩ := exists_toNat_eq (show value.toNat * 10 ≤ 255 by omega)
      exact ⟨tens, htens.symm, by rw [htens, hsum]⟩
  next hdigit => simp [hdigit]

theorem appendExact?_toUInt8 {c : Char} (h : c.toNat < 128) (value : UInt8) :
    appendExact? value c.toUInt8 = append? value c := by
  apply Option.ext
  intro next
  have hzero : '0'.toNat = 48 := rfl
  rw [appendExact?_eq_some_iff, append?_eq_some_iff, isDigit_iff_isDigitOctet, toNat_octet h, hzero]
  simp only [h, true_and]

theorem foldlM_appendExact?_map {cs : List Char} (h : ∀ c ∈ cs, c.toNat < 128) (start : UInt8) :
    (cs.map Char.toUInt8).foldlM appendExact? start = cs.foldlM append? start := by
  induction cs generalizing start with
  | nil => rfl
  | cons c cs ih =>
      obtain ⟨hc, hcs⟩ := List.forall_mem_cons.1 h
      rw [List.map_cons, List.foldlM_cons, List.foldlM_cons, appendExact?_toUInt8 hc]
      exact Option.bind_congr fun next _ => ih hcs next

theorem readExact?_eq_none_of_mem {maxDigits : Nat} {bs : List UInt8} {b : UInt8} (hb : b ∈ bs)
    (h : ¬ IsDigitOctet b) : readExact? maxDigits bs = none := by
  rw [readExact?]
  split
  · rfl
  · exact foldlM_eq_none_of_mem hb (fun value => by rw [appendExact?, if_neg h]) 0

/-- Reading the bytes of a text one by one, with operations that have no result out of range, is
reading its characters. -/
theorem readExact?_octets (maxDigits : Nat) (text : String) :
    readExact? maxDigits (octets text) = readByte? maxDigits text.toList := by
  by_cases hascii : IsAscii text
  · rw [octets_of_isAscii hascii, readExact?, readByte?, List.isEmpty_map, List.length_map,
      foldlM_appendExact?_map hascii]
  · -- neither reader accepts what is not ASCII
    simp only [IsAscii, not_forall, Nat.not_lt] at hascii
    obtain ⟨c, hc, hbeyond⟩ := hascii
    obtain ⟨b, hb, hoctet⟩ := exists_octet_of_mem hc hbeyond
    rw [readExact?_eq_none_of_mem hb fun h => Nat.not_lt_of_le hoctet h.toNat_lt]
    refine ((readByte?_eq_none_iff maxDigits text.toList).2 fun h => ?_).symm
    exact Nat.not_lt_of_le hbeyond ((isDigit_iff_isDigitOctet c).1 (h.1.digits c hc)).1

/-- The bytes are codes of decimal digits, at least one and at most `maxDigits`. -/
structure IsOctetNumeral (maxDigits : Nat) (bs : List UInt8) : Prop where
  length_pos : 0 < bs.length
  length_le : bs.length ≤ maxDigits
  digits : ∀ b ∈ bs, IsDigitOctet b

theorem isOctetNumeral_octets_iff (maxDigits : Nat) (text : String) :
    IsOctetNumeral maxDigits (octets text) ↔ IsNumeral maxDigits text.toList := by
  have hsame := length_and_forall_octets_iff (fun _ h => IsDigitOctet.toNat_lt h)
    isDigit_iff_isDigitOctet (fun length => 0 < length ∧ length ≤ maxDigits) text
  constructor
  · rintro ⟨hpos, hle, hdigits⟩
    obtain ⟨⟨hpos, hle⟩, hdigits⟩ := hsame.1 ⟨⟨hpos, hle⟩, hdigits⟩
    exact ⟨List.ne_nil_of_length_pos hpos, hle, hdigits⟩
  · rintro ⟨hne, hle, hdigits⟩
    obtain ⟨⟨hpos, hle⟩, hdigits⟩ := hsame.2 ⟨⟨List.length_pos_of_ne_nil hne, hle⟩, hdigits⟩
    exact ⟨hpos, hle, hdigits⟩

/-- What is read of a row of digits does not exceed what the row denotes. -/
theorem numeralValue_le_append (front rest : List Char) :
    numeralValue front ≤ numeralValue (front ++ rest) := by
  rw [numeralValue, numeralValue, Nat.ofDigitChars_append]
  exact le_ofDigitChars rest _

/-- Where the reader gives up among digits, no row that goes on from there denotes a byte. -/
theorem lt_numeralValue_of_given_up {front : List Char} (hdigits : ∀ c ∈ front, c.isDigit = true)
    (h : front.foldlM append? 0 = none) (rest : List Char) :
    255 < numeralValue (front ++ rest) := by
  refine Nat.lt_of_lt_of_le (Nat.lt_of_not_le fun hle => ?_) (numeralValue_le_append front rest)
  obtain ⟨value, hvalue⟩ := exists_toNat_eq hle
  rw [(foldlM_append?_eq_some_iff front 0 value).2 ⟨hdigits, hvalue.symm⟩] at h
  cases h

theorem numeralValue_zeros (zeros : Nat) (cs : List Char) :
    numeralValue (List.replicate zeros '0' ++ cs) = numeralValue cs := by
  induction zeros with
  | zero => rfl
  | succ zeros ih => exact ih

theorem isNumeral_zeros_iff (zeros maxDigits : Nat) {cs : List Char} (hne : cs ≠ []) :
    IsNumeral (zeros + maxDigits) (List.replicate zeros '0' ++ cs) ↔ IsNumeral maxDigits cs := by
  have hlength : (List.replicate zeros '0' ++ cs).length = zeros + cs.length := by
    rw [List.length_append, List.length_replicate]
  constructor
  · rintro ⟨-, hle, hdigits⟩
    rw [hlength] at hle
    exact ⟨hne, Nat.le_of_add_le_add_left hle, fun c hc => hdigits c (List.mem_append_right _ hc)⟩
  · rintro ⟨-, hle, hdigits⟩
    refine ⟨List.append_ne_nil_of_right_ne_nil _ hne, ?_, fun c hc => ?_⟩
    · rw [hlength]
      exact Nat.add_le_add_left hle zeros
    · rcases List.mem_append.1 hc with hzero | hc
      · rw [List.eq_of_mem_replicate hzero]
        rfl
      · exact hdigits c hc

/-- Zeros in front change nothing but the room that the numeral takes. -/
theorem readByte?_zeros (zeros maxDigits : Nat) {cs : List Char} (hne : cs ≠ []) :
    readByte? (zeros + maxDigits) (List.replicate zeros '0' ++ cs) = readByte? maxDigits cs := by
  apply Option.ext
  intro value
  rw [readByte?_eq_some_iff, readByte?_eq_some_iff, isNumeral_zeros_iff zeros maxDigits hne,
    numeralValue_zeros]

theorem readByte?_writeByte (value : UInt8) :
    readByte? 3 (writeByte value).toList = some value := by
  have hlt : value.toNat < 10 ^ 3 := Nat.lt_trans value.toNat_lt (by decide)
  exact (readByte?_eq_some_iff 3 _ value).2
    ⟨isNumeral_writeByte (by decide) hlt, numeralValue_writeByte value⟩

/-- A text is read as a byte exactly if its bytes are between one and `maxDigits` codes of digits
and the number that they denote, however large it may be, is at most 255; it is read as that number.
Reading byte by byte with operations that end it at the first result out of range gives the same
answer: where it ends among digits, what denotes a byte never goes on from there, and zeros in front
never end it. The numeral that is written for a byte is read as the byte. -/
theorem numerals_read_exactly :
    (∀ maxDigits text, readExact? maxDigits (octets text) = readByte? maxDigits text.toList) ∧
    (∀ maxDigits (text : String) value, readByte? maxDigits text.toList = some value ↔
      IsOctetNumeral maxDigits (octets text) ∧ numeralValue text.toList = value.toNat) ∧
    (∀ maxDigits (text : String), readByte? maxDigits text.toList = none ↔
      ¬ (IsOctetNumeral maxDigits (octets text) ∧ numeralValue text.toList ≤ 255)) ∧
    (∀ front rest : List Char, (∀ c ∈ front, c.isDigit = true) → front.foldlM append? 0 = none →
      255 < numeralValue (front ++ rest)) ∧
    (∀ zeros maxDigits (cs : List Char), cs ≠ [] →
      readByte? (zeros + maxDigits) (List.replicate zeros '0' ++ cs) = readByte? maxDigits cs) ∧
    ∀ value, readByte? 3 (writeByte value).toList = some value := by
  refine ⟨readExact?_octets, fun maxDigits text value => ?_, fun maxDigits text => ?_,
    fun front rest hdigits h => lt_numeralValue_of_given_up hdigits h rest,
    fun zeros maxDigits cs hne => readByte?_zeros zeros maxDigits hne, readByte?_writeByte⟩
  · rw [isOctetNumeral_octets_iff, readByte?_eq_some_iff]
  · rw [isOctetNumeral_octets_iff, readByte?_eq_none_iff]

/-- Twelve zeros in front of the largest byte, and a row that is given up before its last digit. -/
theorem numerals_read_exactly_padded :
    readByte? 15 "000000000000255".toList = some 255 ∧
      "300".toList.foldlM append? 0 = none ∧ 255 < numeralValue ("300".toList ++ "7".toList) := by
  obtain ⟨-, -, -, hgiven, hzeros, -⟩ := numerals_read_exactly
  have hnone : "300".toList.foldlM append? 0 = none := by decide
  have hdigits : "300".toList.all Char.isDigit = true := by decide
  exact ⟨(hzeros 12 3 "255".toList (by decide)).trans (by decide), hnone,
    hgiven "300".toList "7".toList (List.all_eq_true.1 hdigits) hnone⟩

end Decimal

end Luminaire
