import Luminaire.Color.Notation
import Luminaire.Text.Decimal
import Mathlib.Data.Nat.Digits.Defs

/-!
# What numerals denote

A numeral is read digit by digit, and a decimal one is given up as soon as the value read so far
leaves the byte. What a text denotes is said of the text as a whole: a row of decimal digits
denotes a natural number of any size, and a row of six hexadecimal digits the color whose notation
it is when written in uppercase. The reader of decimals and the denotation agree because another
digit never makes a value smaller, so a row whose front exceeds the byte exceeds it as a whole.
-/

namespace Luminaire

namespace Decimal

/-- The text is a row of decimal digits, at least one and at most `maxDigits`. -/
structure IsNumeral (maxDigits : Nat) (cs : List Char) : Prop where
  nonempty : cs ≠ []
  length_le : cs.length ≤ maxDigits
  digits : ∀ c ∈ cs, c.isDigit = true

/-- The natural number that a row of digits denotes. -/
def numeralValue (cs : List Char) : Nat := Nat.ofDigitChars 10 cs 0

theorem exists_toNat_eq {k : Nat} (h : k ≤ 255) : ∃ value : UInt8, value.toNat = k :=
  ⟨UInt8.ofNat k, UInt8.toNat_ofNat_of_lt (Nat.lt_succ_of_le h)⟩

theorem ofDigitChars_lt {cs : List Char} (h : ∀ c ∈ cs, c.isDigit = true) (start : Nat) :
    Nat.ofDigitChars 10 cs start < (start + 1) * 10 ^ cs.length := by
  induction cs generalizing start with
  | nil => simp
  | cons c cs ih =>
      obtain ⟨hc, hcs⟩ := List.forall_mem_cons.1 h
      have hdigit := (Char.isDigit_iff_toNat.1 hc).2
      have hzero : '0'.toNat = 48 := rfl
      have hnine : '9'.toNat = 57 := rfl
      rw [Nat.ofDigitChars_cons]
      calc
        Nat.ofDigitChars 10 cs (10 * start + (c.toNat - '0'.toNat))
          < (10 * start + (c.toNat - '0'.toNat) + 1) * 10 ^ cs.length := ih hcs _
        _ ≤ ((start + 1) * 10) * 10 ^ cs.length := Nat.mul_le_mul_right _ (by omega)
        _ = (start + 1) * 10 ^ (c :: cs).length := by
            rw [List.length_cons, Nat.pow_succ', Nat.mul_assoc]

theorem IsNumeral.value_lt {maxDigits : Nat} {cs : List Char} (h : IsNumeral maxDigits cs) :
    numeralValue cs < 10 ^ maxDigits := by
  have hvalue := ofDigitChars_lt h.digits 0
  rw [Nat.zero_add, Nat.one_mul] at hvalue
  exact Nat.lt_of_lt_of_le hvalue (Nat.pow_le_pow_right (by decide) h.length_le)

theorem IsNumeral.value_le_nine {cs : List Char} (h : IsNumeral 1 cs) : numeralValue cs ≤ 9 :=
  Nat.le_of_lt_succ h.value_lt

theorem isNumeral_repr {m maxDigits : Nat} (hpos : 0 < maxDigits) (h : m < 10 ^ maxDigits) :
    IsNumeral maxDigits m.repr.toList := by
  rw [Nat.toList_repr]
  exact ⟨Nat.toDigits_ne_nil, Nat.toDigits_length 10 m maxDigits hpos h,
    fun _ hc => Nat.isDigit_of_mem_toDigits (by decide) (by decide) hc⟩

@[simp] theorem numeralValue_repr (m : Nat) : numeralValue m.repr.toList = m := by
  rw [numeralValue, Nat.toList_repr, Nat.ofDigitChars_ten_toDigits]

theorem le_ofDigitChars (cs : List Char) (start : Nat) : start ≤ Nat.ofDigitChars 10 cs start := by
  induction cs generalizing start with
  | nil => simp
  | cons c cs ih =>
      have hrest := ih (10 * start + (c.toNat - '0'.toNat))
      rw [Nat.ofDigitChars_cons]
      omega

theorem foldlM_append?_eq_some_iff (cs : List Char) (start value : UInt8) :
    cs.foldlM append? start = some value ↔
      (∀ c ∈ cs, c.isDigit = true) ∧ Nat.ofDigitChars 10 cs start.toNat = value.toNat := by
  induction cs generalizing start with
  | nil => simp [UInt8.toNat_inj]
  | cons c cs ih =>
      rw [List.foldlM_cons, Option.bind_eq_bind, Option.bind_eq_some_iff, List.forall_mem_cons,
        Nat.ofDigitChars_cons]
      constructor
      · rintro ⟨next, hnext, hrest⟩
        obtain ⟨hdigit, hvalue⟩ := (append?_eq_some_iff start c next).1 hnext
        obtain ⟨hdigits, htotal⟩ := (ih next).1 hrest
        rw [Nat.mul_comm, hvalue]
        exact ⟨⟨hdigit, hdigits⟩, htotal⟩
      · rintro ⟨⟨hdigit, hdigits⟩, htotal⟩
        have hle := le_ofDigitChars cs (10 * start.toNat + (c.toNat - '0'.toNat))
        have hvalue := value.toNat_lt
        obtain ⟨next, hnext⟩ := exists_toNat_eq
          (show 10 * start.toNat + (c.toNat - '0'.toNat) ≤ 255 by omega)
        refine ⟨next, (append?_eq_some_iff start c next).2 ⟨hdigit, ?_⟩,
          (ih next).2 ⟨hdigits, ?_⟩⟩
        · rw [Nat.mul_comm, hnext]
        · rw [hnext, htotal]

theorem readByte?_eq_some_iff (maxDigits : Nat) (cs : List Char) (value : UInt8) :
    readByte? maxDigits cs = some value ↔
      IsNumeral maxDigits cs ∧ numeralValue cs = value.toNat := by
  constructor
  · intro h
    have hne : cs ≠ [] := by
      rintro rfl
      cases h
    have hlen : cs.length ≤ maxDigits := by
      refine Nat.le_of_not_lt fun hlt => ?_
      rw [readByte?_of_lt_length hlt] at h
      cases h
    rw [readByte?_of_length_le hne hlen] at h
    obtain ⟨hdigits, hvalue⟩ := (foldlM_append?_eq_some_iff cs 0 value).1 h
    exact ⟨⟨hne, hlen, hdigits⟩, hvalue⟩
  · rintro ⟨⟨hne, hlen, hdigits⟩, hvalue⟩
    rw [readByte?_of_length_le hne hlen]
    exact (foldlM_append?_eq_some_iff cs 0 value).2 ⟨hdigits, hvalue⟩

theorem readByte?_eq_none_iff (maxDigits : Nat) (cs : List Char) :
    readByte? maxDigits cs = none ↔ ¬ (IsNumeral maxDigits cs ∧ numeralValue cs ≤ 255) := by
  rw [Option.eq_none_iff_forall_ne_some]
  constructor
  · rintro h ⟨hnumeral, hle⟩
    obtain ⟨value, hvalue⟩ := exists_toNat_eq hle
    exact h value ((readByte?_eq_some_iff _ _ _).2 ⟨hnumeral, hvalue.symm⟩)
  · intro h value hread
    obtain ⟨hnumeral, hvalue⟩ := (readByte?_eq_some_iff _ _ _).1 hread
    have hlt := value.toNat_lt
    exact h ⟨hnumeral, by omega⟩

end Decimal

namespace Hexadecimal

/-- A hexadecimal digit of either case. -/
def IsDigit (c : Char) : Prop :=
  '0' ≤ c ∧ c ≤ '9' ∨ 'a' ≤ c ∧ c ≤ 'f' ∨ 'A' ≤ c ∧ c ≤ 'F'

instance (c : Char) : Decidable (IsDigit c) :=
  inferInstanceAs (Decidable ('0' ≤ c ∧ c ≤ '9' ∨ 'a' ≤ c ∧ c ≤ 'f' ∨ 'A' ≤ c ∧ c ≤ 'F'))

theorem digitValue?_eq_none_iff (c : Char) : digitValue? c = none ↔ ¬ IsDigit c := by
  rw [digitValue?, IsDigit]
  split
  next h => simp [h]
  next h =>
    split
    next h' => simp [h']
    next h' => simp [h, h']

theorem exists_digitValue? {c : Char} (h : IsDigit c) : ∃ value, digitValue? c = some value := by
  rw [← Option.ne_none_iff_exists']
  exact fun hnone => (digitValue?_eq_none_iff c).1 hnone h

theorem toNat_lt_of_isDigit {c : Char} (h : IsDigit c) : c.toNat < 128 := by
  have hle : c ≤ 'f' := by
    rcases h with h | h | h
    · exact Char.le_trans h.2 (by decide)
    · exact h.2
    · exact Char.le_trans h.2 (by decide)
  have hval : c.val.toNat ≤ 'f'.val.toNat := hle
  show c.val.toNat < 128
  exact Nat.lt_of_le_of_lt hval (by decide)

/-- The table of the digits, over all characters among which they are. -/
theorem digitValue?_ofNat :
    ∀ k < 128, ∀ value ∈ digitValue? (Char.ofNat k),
      value < 16 ∧ (Char.ofNat k).toUpper = digit value := by
  decide +kernel

theorem isDigit_of_digitValue? {c : Char} {value : Nat} (h : digitValue? c = some value) :
    IsDigit c := by
  refine Decidable.of_not_not fun hnot => ?_
  rw [(digitValue?_eq_none_iff c).2 hnot] at h
  cases h

theorem toUpper_of_digitValue? {c : Char} {value : Nat} (h : digitValue? c = some value) :
    value < 16 ∧ c.toUpper = digit value := by
  have hlt := toNat_lt_of_isDigit (isDigit_of_digitValue? h)
  have htable := digitValue?_ofNat c.toNat hlt value
  rw [Char.ofNat_toNat] at htable
  exact htable h

theorem digit_inj {v w : Nat} (hv : v < 16) (hw : w < 16) (h : digit v = digit w) : v = w := by
  have hvalue := digitValue?_digit v hv
  rw [h, digitValue?_digit w hw] at hvalue
  exact (Option.some.inj hvalue).symm

theorem digitValue?_eq_some_iff (c : Char) (value : Nat) (hlt : value < 16) :
    digitValue? c = some value ↔ IsDigit c ∧ c.toUpper = digit value := by
  constructor
  · intro h
    exact ⟨isDigit_of_digitValue? h, (toUpper_of_digitValue? h).2⟩
  · rintro ⟨hdigit, hupper⟩
    obtain ⟨v, hv⟩ := exists_digitValue? hdigit
    obtain ⟨hvlt, hvupper⟩ := toUpper_of_digitValue? hv
    rw [hv, digit_inj hvlt hlt (hvupper.symm.trans hupper)]

theorem byteOfDigits?_eq_some_iff (high low : Char) (b : UInt8) :
    byteOfDigits? high low = some b ↔
      (IsDigit high ∧ IsDigit low) ∧ [high, low].map Char.toUpper = digitsOfByte b := by
  have hb := b.toNat_lt
  have hhigh := digitValue?_eq_some_iff high (b.toNat / 16) (by omega)
  have hlow := digitValue?_eq_some_iff low (b.toNat % 16) (by omega)
  constructor
  · intro h
    obtain ⟨v, hv, w, hw, hbyte⟩ : ∃ v, digitValue? high = some v ∧
        ∃ w, digitValue? low = some w ∧ UInt8.ofNat (v * 16 + w) = b := by
      simpa [byteOfDigits?, Option.bind_eq_some_iff] using h
    have hvlt := (toUpper_of_digitValue? hv).1
    have hwlt := (toUpper_of_digitValue? hw).1
    have hvalue : b.toNat = v * 16 + w := by
      rw [← hbyte, UInt8.toNat_ofNat']
      omega
    have hv' : v = b.toNat / 16 := by omega
    have hw' : w = b.toNat % 16 := by omega
    subst hv' hw'
    obtain ⟨hhigh, hupper⟩ := hhigh.1 hv
    obtain ⟨hlow, hupper'⟩ := hlow.1 hw
    refine ⟨⟨hhigh, hlow⟩, ?_⟩
    rw [List.map_cons, List.map_singleton, hupper, hupper', digitsOfByte]
  · rintro ⟨⟨hhigh', hlow'⟩, hupper⟩
    rw [digitsOfByte, List.map_cons, List.map_singleton] at hupper
    injection hupper with hupper hrest
    injection hrest with hupper' _
    have hsum : b.toNat / 16 * 16 + b.toNat % 16 = b.toNat := by omega
    rw [byteOfDigits?, hhigh.2 ⟨hhigh', hupper⟩, hlow.2 ⟨hlow', hupper'⟩]
    show some (UInt8.ofNat (b.toNat / 16 * 16 + b.toNat % 16)) = some b
    rw [hsum, UInt8.ofNat_toNat]

theorem exists_byteOfDigits? {high low : Char} (h : IsDigit high ∧ IsDigit low) :
    ∃ b, byteOfDigits? high low = some b := by
  obtain ⟨v, hv⟩ := exists_digitValue? h.1
  obtain ⟨w, hw⟩ := exists_digitValue? h.2
  rw [byteOfDigits?, hv, hw]
  exact ⟨_, rfl⟩

end Hexadecimal

namespace Color

open Hexadecimal

/-- The text is six hexadecimal digits of either case. -/
structure IsNotation (text : String) : Prop where
  length_eq : text.toList.length = notationLength
  digits : ∀ d ∈ text.toList, IsDigit d

theorem isNotation_iff {text : String} {r₁ r₀ g₁ g₀ b₁ b₀ : Char}
    (htext : text.toList = [r₁, r₀, g₁, g₀, b₁, b₀]) :
    IsNotation text ↔ (IsDigit r₁ ∧ IsDigit r₀) ∧ (IsDigit g₁ ∧ IsDigit g₀) ∧
      IsDigit b₁ ∧ IsDigit b₀ := by
  constructor
  · rintro ⟨_, hdigits⟩
    rw [htext] at hdigits
    simpa [and_assoc] using hdigits
  · intro h
    refine ⟨by rw [htext]; rfl, ?_⟩
    rw [htext]
    simpa [and_assoc] using h

theorem IsNotation.exists_toList {text : String} (h : IsNotation text) :
    ∃ r₁ r₀ g₁ g₀ b₁ b₀, text.toList = [r₁, r₀, g₁, g₀, b₁, b₀] := by
  match htext : text.toList, h.length_eq with
  | [r₁, r₀, g₁, g₀, b₁, b₀], _ => exact ⟨r₁, r₀, g₁, g₀, b₁, b₀, rfl⟩

theorem ofNotation?_of_toList {text : String} {r₁ r₀ g₁ g₀ b₁ b₀ : Char}
    (htext : text.toList = [r₁, r₀, g₁, g₀, b₁, b₀]) :
    ofNotation? text =
      (byteOfDigits? r₁ r₀).bind fun red => (byteOfDigits? g₁ g₀).bind fun green =>
        (byteOfDigits? b₁ b₀).map fun blue => ⟨red, green, blue⟩ := by
  simp only [ofNotation?, htext, Option.map_eq_bind]
  rfl

theorem map_toUpper_eq_digits_iff (r₁ r₀ g₁ g₀ b₁ b₀ : Char) (c : Color) :
    [r₁, r₀, g₁, g₀, b₁, b₀].map Char.toUpper = c.digits ↔
      [r₁, r₀].map Char.toUpper = digitsOfByte c.red ∧
        [g₁, g₀].map Char.toUpper = digitsOfByte c.green ∧
          [b₁, b₀].map Char.toUpper = digitsOfByte c.blue := by
  simp [digits, digitsOfByte, and_assoc]

theorem ofNotation?_eq_some_iff (text : String) (c : Color) :
    ofNotation? text = some c ↔ IsNotation text ∧ text.toList.map Char.toUpper = c.digits := by
  constructor
  · intro h
    rw [ofNotation?] at h
    split at h
    next r₁ r₀ g₁ g₀ b₁ b₀ htext =>
      simp only [Option.bind_eq_bind, Option.bind_eq_some_iff] at h
      obtain ⟨red, hred, green, hgreen, blue, hblue, hcolor⟩ := h
      obtain rfl := Option.some.inj hcolor
      obtain ⟨hdigits, hupper⟩ := (byteOfDigits?_eq_some_iff r₁ r₀ red).1 hred
      obtain ⟨hdigits', hupper'⟩ := (byteOfDigits?_eq_some_iff g₁ g₀ green).1 hgreen
      obtain ⟨hdigits'', hupper''⟩ := (byteOfDigits?_eq_some_iff b₁ b₀ blue).1 hblue
      refine ⟨(isNotation_iff htext).2 ⟨hdigits, hdigits', hdigits''⟩, ?_⟩
      rw [htext, map_toUpper_eq_digits_iff]
      exact ⟨hupper, hupper', hupper''⟩
    next => cases h
  · rintro ⟨h, hupper⟩
    obtain ⟨r₁, r₀, g₁, g₀, b₁, b₀, htext⟩ := h.exists_toList
    obtain ⟨hdigits, hdigits', hdigits''⟩ := (isNotation_iff htext).1 h
    rw [htext, map_toUpper_eq_digits_iff] at hupper
    obtain ⟨hupper, hupper', hupper''⟩ := hupper
    rw [ofNotation?_of_toList htext,
      (byteOfDigits?_eq_some_iff r₁ r₀ c.red).2 ⟨hdigits, hupper⟩,
      (byteOfDigits?_eq_some_iff g₁ g₀ c.green).2 ⟨hdigits', hupper'⟩,
      (byteOfDigits?_eq_some_iff b₁ b₀ c.blue).2 ⟨hdigits'', hupper''⟩]
    rfl

theorem exists_digits {text : String} (h : IsNotation text) :
    ∃ c : Color, text.toList.map Char.toUpper = c.digits := by
  obtain ⟨r₁, r₀, g₁, g₀, b₁, b₀, htext⟩ := h.exists_toList
  obtain ⟨hdigits, hdigits', hdigits''⟩ := (isNotation_iff htext).1 h
  obtain ⟨red, hred⟩ := exists_byteOfDigits? hdigits
  obtain ⟨green, hgreen⟩ := exists_byteOfDigits? hdigits'
  obtain ⟨blue, hblue⟩ := exists_byteOfDigits? hdigits''
  refine ⟨⟨red, green, blue⟩, ((ofNotation?_eq_some_iff text _).1 ?_).2⟩
  rw [ofNotation?_of_toList htext, hred, hgreen, hblue]
  rfl

theorem ofNotation?_eq_none_iff (text : String) : ofNotation? text = none ↔ ¬ IsNotation text := by
  rw [Option.eq_none_iff_forall_ne_some]
  constructor
  · intro hnone h
    obtain ⟨c, hc⟩ := exists_digits h
    exact hnone c ((ofNotation?_eq_some_iff text c).2 ⟨h, hc⟩)
  · intro h c hread
    exact h ((ofNotation?_eq_some_iff text c).1 hread).1

end Color

end Luminaire
