import Luminaire.Color.Random
import Mathlib.Data.Rat.Lemmas
import Mathlib.Tactic.FieldSimp
import Mathlib.Tactic.NormNum

/-!
# Fractions without rounding

A hue is a number below `2 ^ 32` divided by `2 ^ 32` in floating point. Nothing is rounded there. A
number of at most 53 bits is written with a mantissa of exactly 53 bits (`IsFull`) by putting zeros
behind it, and dividing by a power of two changes the exponent and leaves the mantissa alone. All
that rounding ever has to drop are zeros (`IsFull.roundWithAccuracy_eq`), and a full mantissa is
found again in the bits of the result (`IsFull.unpack_pack`).
-/

namespace Luminaire

namespace Binary64

open Float.Model Float.Model.UnpackedFloat

/-- The number that sign, mantissa and exponent make. Infinities and what is no number make none. -/
def valueOf? : UnpackedFloat → Option ℚ
  | .zero _ => some 0
  | .finite sign mantissa exponent _ => some (sign.apply mantissa * 2 ^ exponent)
  | .infinity _ | .notANumber => none

/-- The number that a floating-point value is, exactly. -/
def value? (x : Float) : Option ℚ := valueOf? x.toModel.unpack

theorem shiftRight_zeros (m j : ℕ) :
    ExtendedMantissa.ofMantissaAndAccuracy (m * 2 ^ j) .exact >>> j = ⟨m, false, false⟩ := by
  induction j generalizing m with
  | zero => rw [pow_zero, Nat.mul_one]; rfl
  | succ j ih =>
      have hlast := ih (m * 2)
      rw [Nat.mul_assoc, ← Nat.pow_succ'] at hlast
      calc ExtendedMantissa.ofMantissaAndAccuracy (m * 2 ^ (j + 1)) .exact >>> (j + 1)
        _ = (ExtendedMantissa.ofMantissaAndAccuracy (m * 2 ^ (j + 1)) .exact >>> j).shiftRightOne :=
            rfl
        _ = ⟨m, false, false⟩ := by simp [hlast, ExtendedMantissa.shiftRightOne]

theorem toNat_exponent {biased : ℕ} (hmax : biased < 2047) :
    (BitVec.ofNat 11 biased).toNat = biased := by
  rw [BitVec.toNat_ofNat]
  exact Nat.mod_eq_of_lt (by omega)

theorem exponent_ne_ones {biased : ℕ} (hmax : biased < 2047) : BitVec.ofNat 11 biased ≠ -1#11 := by
  intro heq
  have : biased = 2047 := (toNat_exponent hmax).symm.trans (congrArg BitVec.toNat heq)
  omega

/-- The sign is the first bit, in front of the others. -/
theorem sign_packComponents (sign : Sign) (exponent : BitVec 11) (mantissa : BitVec 52) :
    Sign.ofBitVec (unpackSign (packComponents .binary64 sign exponent mantissa)) = sign := by
  show Sign.ofBitVec ((sign.toBitVec ++ exponent ++ mantissa).extractLsb' 63 1) = sign
  rw [BitVec.extractLsb'_append_eq_of_le (by omega), BitVec.extractLsb'_append_eq_of_le (by omega)]
  cases sign with
  | positive => rfl
  | negative => rfl

/-- Rounding is to 53 bits, or fewer if the number is very small. -/
theorem targetExponent_eq (e : ℤ) : Format.binary64.targetExponent e = max (e - 53) (-1074) := rfl

/-- The mantissa has 53 bits, as many as there are. -/
structure IsFull (mantissa : ℕ) : Prop where
  lower : 2 ^ 52 ≤ mantissa
  upper : mantissa < 2 ^ 53

namespace IsFull

variable {m j : ℕ} {e e' : ℤ} (sign : Sign) (h : IsFull m)
include h

theorem pos : 0 < m := Nat.lt_of_lt_of_le (Nat.two_pow_pos 52) h.lower

theorem log2_mul (j : ℕ) : (m * 2 ^ j).log2 = 52 + j := by
  apply (Nat.log2_eq_iff (Nat.mul_pos h.pos (Nat.two_pow_pos j)).ne').2
  constructor
  · rw [pow_add]
    exact Nat.mul_le_mul_right _ h.lower
  · rw [Nat.add_right_comm, pow_add]
    exact Nat.mul_lt_mul_of_pos_right h.upper (Nat.two_pow_pos j)

theorem log2_eq : m.log2 = 52 := by
  simpa using h.log2_mul 0

theorem shiftToTargetExponent_eq (he : e + j = e') (hmin : -1074 ≤ e') :
    shiftToTargetExponent .binary64 (m * 2 ^ j) e .exact = (⟨m, false, false⟩, e') := by
  have htarget : Format.binary64.targetExponent (totalExponent (m * 2 ^ j) e) = e' := by
    rw [targetExponent_eq, totalExponent, h.log2_mul]
    omega
  have hshift : (e' - e).toNat = j := by omega
  simp only [shiftToTargetExponent, htarget, shiftToExponent, hshift, shiftRight_zeros, he]

/-- Zeros behind a full mantissa are dropped, and the rest is what rounding returns. -/
theorem roundWithAccuracy_eq (he : e + j = e') (hmin : -1074 ≤ e') :
    roundWithAccuracy .binary64 sign (m * 2 ^ j) e .exact = .finite sign m e' h.pos := by
  have hagain : shiftToTargetExponent .binary64 m e' .exact = (⟨m, false, false⟩, e') := by
    simpa using h.shiftToTargetExponent_eq (show e' + (0 : ℕ) = e' by simp) hmin
  rw [roundWithAccuracy, h.shiftToTargetExponent_eq he hmin]
  show (match shiftToTargetExponent .binary64 m e' .exact with
    | (final, exponent) =>
      if hzero : final.mantissa = 0 then zero sign
      else finite sign final.mantissa exponent (Nat.pos_of_ne_zero hzero)) = _
  rw [hagain]
  exact dif_neg h.pos.ne'

/-- The first bit of a full mantissa is not stored, and is known to be there. -/
theorem toNat_implicit : (1#1 ++ BitVec.ofNat 52 m).toNat = m := by
  have hlower := h.lower
  have hupper := h.upper
  rw [BitVec.toNat_append, ← Nat.shiftLeft_add_eq_or_of_lt (BitVec.isLt _), BitVec.toNat_ofNat,
    Nat.shiftLeft_eq]
  show 1 * 2 ^ 52 + m % 2 ^ 52 = m
  omega

theorem unpack_components {biased : ℕ} (hmin : 0 < biased) (hmax : biased < 2047) :
    UnpackedFloat.unpack .binary64
        (packComponents .binary64 sign (BitVec.ofNat 11 biased) (BitVec.ofNat 52 m)) =
      .finite sign m (biased - 1075) h.pos := by
  have hzeros : BitVec.ofNat 11 biased ≠ 0#11 := fun heq => by
    have : biased = 0 := (toNat_exponent hmax).symm.trans (congrArg BitVec.toNat heq)
    omega
  let bits := packComponents .binary64 sign (BitVec.ofNat 11 biased) (BitVec.ofNat 52 m)
  have hexponent : unpackExponent bits = BitVec.ofNat 11 biased := unpackExponent_packComponents
  have hmantissa : unpackMantissa bits = BitVec.ofNat 52 m := unpackMantissa_packComponents
  show (if unpackExponent bits = -1#11 then _ else if unpackExponent bits = 0#11 then _ else _) = _
  rw [if_neg (hexponent ▸ exponent_ne_ones hmax), if_neg (hexponent ▸ hzeros), finite.injEq]
  refine ⟨sign_packComponents sign _ _, ?_, ?_⟩
  · rw [hmantissa, h.toNat_implicit]
  · rw [hexponent, toNat_exponent hmax]
    rfl

theorem pack_eq {biased : ℕ} (hbiased : e + 1075 = biased) (hmax : biased < 2047) :
    UnpackedFloat.pack .binary64 (.finite sign m e h.pos) =
      packComponents .binary64 sign (BitVec.ofNat 11 biased) (BitVec.ofNat 52 m) := by
  have hexponent : (e + (1023 : ℕ) + (52 : ℕ)).toNat = biased := by omega
  show (if 2 ^ 11 ≤ (e + (1023 : ℕ) + (52 : ℕ)).toNat + 1 then _
    else if m.log2 + 1 = 53 then packComponents .binary64 sign
      (BitVec.ofNat 11 (e + (1023 : ℕ) + (52 : ℕ)).toNat) (BitVec.ofNat 52 m) else _) = _
  rw [hexponent, h.log2_eq, if_neg (by omega), if_pos rfl]

/-- Packing puts the digits of a full mantissa where unpacking looks for them. -/
theorem unpack_pack (hmin : -1074 ≤ e) (hmax : e ≤ 971) :
    (Float.Model.pack (.finite sign m e h.pos)).unpack = .finite sign m e h.pos := by
  obtain ⟨biased, hbiased⟩ : ∃ biased : ℕ, e + 1075 = biased := ⟨(e + 1075).toNat, by omega⟩
  show UnpackedFloat.unpack .binary64 (UnpackedFloat.pack .binary64 (.finite sign m e h.pos)) = _
  rw [h.pack_eq sign hbiased (by omega), h.unpack_components sign (by omega) (by omega),
    finite.injEq]
  exact ⟨rfl, rfl, by omega⟩

/-- The quotient has one zero more than the mantissa, since it is computed to 54 bits. -/
theorem divCore_two_pow {f : ℤ} (he : e - f - 52 = e') (hmin : -1074 < e') :
    divCore .binary64 m e (2 ^ 52) f = (m * 2 ^ 1, e' - 1, .exact) := by
  have htarget : Format.binary64.targetExponent
      (totalExponent m e - totalExponent (2 ^ 52) f) = e' - 1 := by
    rw [targetExponent_eq, totalExponent, totalExponent, h.log2_eq, Nat.log2_two_pow]
    omega
  have hleast : min (e - f) (e' - 1) = e' - 1 := by omega
  have hshift : (e - f - (e' - 1)).toNat = 53 := by omega
  have hquotient : m <<< 53 / 2 ^ 52 = m * 2 ^ 1 := by rw [Nat.shiftLeft_eq]; omega
  have hrest : m <<< 53 % 2 ^ 52 = 0 := by rw [Nat.shiftLeft_eq]; omega
  simp only [divCore, htarget, hleast, hshift, hquotient, hrest]
  rfl

theorem div_two_pow {f : ℤ} (he : e - f - 52 = e') (hmin : -1074 < e') :
    UnpackedFloat.div .binary64 (.finite .positive m e h.pos)
        (.finite .positive (2 ^ 52) f (Nat.two_pow_pos 52)) = .finite .positive m e' h.pos := by
  show (match divCore .binary64 m e (2 ^ 52) f with
    | (mantissa, exponent, accuracy) =>
      roundWithAccuracy .binary64 .positive mantissa exponent accuracy) = _
  rw [h.divCore_two_pow he hmin]
  exact h.roundWithAccuracy_eq .positive (by simp) (by omega)

end IsFull

/-- The zeros that make the mantissa of a number full. -/
theorem exists_isFull {n : ℕ} (hpos : 0 < n) (hlt : n < 2 ^ 53) :
    ∃ j, n.log2 + j = 52 ∧ IsFull (n * 2 ^ j) := by
  have hlog : n.log2 < 53 := (Nat.log2_lt hpos.ne').2 hlt
  obtain ⟨j, hj⟩ : ∃ j, n.log2 + j = 52 := ⟨52 - n.log2, by omega⟩
  refine ⟨j, hj, ?_, ?_⟩
  · calc 2 ^ 52
      _ = 2 ^ n.log2 * 2 ^ j := by rw [← pow_add, hj]
      _ ≤ n * 2 ^ j := Nat.mul_le_mul_right _ (Nat.log2_self_le hpos.ne')
  · calc n * 2 ^ j
      _ < 2 ^ (n.log2 + 1) * 2 ^ j :=
        Nat.mul_lt_mul_of_pos_right Nat.lt_log2_self (Nat.two_pow_pos j)
      _ = 2 ^ 53 := by rw [← pow_add, Nat.add_right_comm, hj]

theorem unpack_ofNat {n : ℕ} (hpos : 0 < n) (hlt : n < 2 ^ 53) :
    ∃ (j : ℕ) (h : IsFull (n * 2 ^ j)), j ≤ 52 ∧
      (Float.Model.ofNat n).unpack = .finite .positive (n * 2 ^ j) (-j) h.pos := by
  obtain ⟨j, hj, h⟩ := exists_isFull hpos hlt
  refine ⟨j, h, by omega, ?_⟩
  have htarget : Format.binary64.targetExponent (totalExponent n 0) = -j := by
    rw [targetExponent_eq, totalExponent]
    omega
  have hdecrease : decreaseExponent n 0 (-j) = (n * 2 ^ j * 2 ^ 0, (-j : ℤ)) := by
    simp [decreaseExponent, Nat.shiftLeft_eq]
  have hround : UnpackedFloat.round .binary64 .positive n 0 =
      .finite .positive (n * 2 ^ j) (-j) h.pos := by
    rw [UnpackedFloat.round, htarget, hdecrease]
    exact h.roundWithAccuracy_eq .positive (by simp) (by omega)
  have hnormalize : UnpackedFloat.ofNat .binary64 n =
      .finite .positive (n * 2 ^ j) (-j) h.pos := by
    rw [UnpackedFloat.ofNat, UnpackedFloat.ofInt, UnpackedFloat.normalize,
      Int.compare_eq_gt.2 (by omega)]
    exact hround
  rw [Float.Model.ofNat, hnormalize]
  exact h.unpack_pack .positive (by omega) (by omega)

theorem unpack_two_pow_32 : (4294967296.0 : Float).toModel.unpack =
    .finite .positive (2 ^ 52) (-20) (Nat.two_pow_pos 52) := rfl

end Binary64

namespace SplitMix

open Binary64 Float.Model

/-- A hue is the quotient that it is written as, and not a number close to it. -/
theorem value?_hueOfOutput (u : UInt32) :
    value? (hueOfOutput u) = some ((u.toNat : ℚ) / 2 ^ 32) := by
  have hlt := u.toNat_lt
  by_cases hzero : u.toNat = 0
  · obtain rfl : u = 0 := UInt32.toNat_inj.1 hzero
    show some (0 : ℚ) = _
    simp
  obtain ⟨j, h, hj, hunpack⟩ := unpack_ofNat (Nat.pos_of_ne_zero hzero) (by omega)
  have hdiv : (hueOfOutput u).toModel.unpack =
      .finite .positive (u.toNat * 2 ^ j) (-j - 32) h.pos := by
    show (Float.Model.pack (UnpackedFloat.div .binary64 (Float.Model.ofNat u.toNat).unpack
      (4294967296.0 : Float).toModel.unpack)).unpack = _
    have hexponent : -(j : ℤ) - -20 - 52 = -j - 32 := by omega
    rw [hunpack, unpack_two_pow_32, h.div_two_pow hexponent (by omega),
      h.unpack_pack .positive (by omega) (by omega)]
  have hvalue : ((u.toNat * 2 ^ j : ℕ) : ℚ) * 2 ^ (-(j : ℤ) - 32) = u.toNat / 2 ^ 32 := by
    rw [zpow_sub₀ (by norm_num), zpow_neg]
    push_cast
    field_simp
    norm_num
  rw [value?, hdiv]
  exact congrArg some hvalue

end SplitMix

end Luminaire
