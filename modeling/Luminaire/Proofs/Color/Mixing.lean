import Luminaire.Color.Random
import Mathlib.Data.FinEnum
import Mathlib.Data.Nat.ModEq
import Mathlib.Data.Nat.Prime.Basic
import Mathlib.Order.Interval.Finset.Nat

/-!
# Mixing words

Mixing xors a word with its own front part three times and multiplies it by an odd constant in
between. None of these steps can take two words to the same one. Xoring is undone from the front of
the word on, where nothing was changed, and an odd constant has no factor in common with the number
of words. As there are as many words after a step as before it, every word is met, and the upper
half of the mixed words has each of its values equally often.
-/

namespace Luminaire

namespace SplitMix

open Function Finset

theorem eq_zero_of_shiftRight_eq {n w : UInt64} (hn : 0 < n.toNat % 64) (h : w >>> n = w) :
    w = 0 := by
  have hdiv : w.toNat / 2 ^ (n.toNat % 64) = w.toNat := by
    rw [← Nat.shiftRight_eq_div_pow, ← UInt64.toNat_shiftRight, h]
  apply UInt64.toNat_inj.1
  by_contra hne
  exact (Nat.div_lt_self (Nat.pos_of_ne_zero hne) (Nat.one_lt_two_pow hn.ne')).ne hdiv

/-- Two words that become the same differ by a word that shifting does not change. -/
theorem xorShift_injective {n : UInt64} (hn : 0 < n.toNat % 64) :
    Injective fun w : UInt64 => w ^^^ (w >>> n) := by
  intro a b (h : a ^^^ (a >>> n) = b ^^^ (b >>> n))
  have hshift : (a ^^^ b) ^^^ ((a ^^^ b) >>> n) = 0 := by
    calc (a ^^^ b) ^^^ ((a ^^^ b) >>> n)
      _ = (a ^^^ (a >>> n)) ^^^ (b ^^^ (b >>> n)) := by rw [UInt64.shiftRight_xor]; ac_rfl
      _ = 0 := UInt64.xor_eq_zero_iff.2 h
  exact UInt64.xor_eq_zero_iff.1
    (eq_zero_of_shiftRight_eq hn (UInt64.xor_eq_zero_iff.1 hshift).symm)

theorem coprime_of_odd {c : UInt64} (hc : Odd c.toNat) : Nat.Coprime (2 ^ 64) c.toNat :=
  Nat.Coprime.pow_left 64 (Nat.coprime_two_left.2 hc)

theorem mul_odd_injective {c : UInt64} (hc : Odd c.toNat) :
    Injective fun w : UInt64 => w * c := by
  intro a b (h : a * c = b * c)
  have hmod : a.toNat * c.toNat ≡ b.toNat * c.toNat [MOD 2 ^ 64] := by
    have := congrArg UInt64.toNat h
    rwa [UInt64.toNat_mul, UInt64.toNat_mul] at this
  have hsame := hmod.cancel_right_of_coprime (coprime_of_odd hc)
  exact UInt64.toNat_inj.1 (hsame.eq_of_lt_of_lt a.toNat_lt b.toNat_lt)

theorem mix_bijective : Bijective mix := by
  have hfirst := (mul_odd_injective (c := 0xbf58476d1ce4e5b9) (by decide)).comp
    (xorShift_injective (n := 30) (by decide))
  have hsecond := (mul_odd_injective (c := 0x94d049bb133111eb) (by decide)).comp
    (xorShift_injective (n := 27) (by decide))
  have hlast := xorShift_injective (n := 31) (by decide)
  exact Finite.injective_iff_bijective.1 (hlast.comp (hsecond.comp hfirst))

theorem toNat_upperHalf (w : UInt64) : (upperHalf w).toNat = w.toNat / 2 ^ 32 := by
  have hlt := w.toNat_lt
  rw [upperHalf, UInt64.toNat_toUInt32, UInt64.toNat_shiftRight, Nat.shiftRight_eq_div_pow]
  exact Nat.mod_eq_of_lt (show w.toNat / 2 ^ 32 < 2 ^ 32 by omega)

/-- The words with a given upper half are numbers in a row, one for each lower half. -/
theorem card_upperHalf (u : UInt32) : #{w : UInt64 | upperHalf w = u} = 2 ^ 32 := by
  have hu := u.toNat_lt
  have hmem (w : UInt64) : upperHalf w = u ↔
      w.toNat ∈ Ico (u.toNat * 2 ^ 32) (u.toNat * 2 ^ 32 + 2 ^ 32) := by
    rw [← UInt32.toNat_inj, toNat_upperHalf, mem_Ico]
    omega
  have hword {n : ℕ} (hn : n ∈ Ico (u.toNat * 2 ^ 32) (u.toNat * 2 ^ 32 + 2 ^ 32)) :
      (UInt64.ofNat n).toNat = n := by
    have := (mem_Ico.1 hn).2
    exact UInt64.toNat_ofNat_of_lt' (show n < 2 ^ 64 by omega)
  calc #{w : UInt64 | upperHalf w = u}
    _ = #(Ico (u.toNat * 2 ^ 32) (u.toNat * 2 ^ 32 + 2 ^ 32)) := by
      refine card_nbij' UInt64.toNat UInt64.ofNat ?_ ?_ ?_ ?_
      · intro w hw
        exact (hmem w).1 (mem_filter.1 hw).2
      · intro n hn
        refine mem_filter.2 ⟨mem_univ _, (hmem _).2 ?_⟩
        rwa [hword hn]
      · intro w _
        exact UInt64.ofNat_toNat
      · intro n hn
        exact hword hn
    _ = 2 ^ 32 := by rw [Nat.card_Ico, Nat.add_sub_cancel_left]

theorem card_upperHalf_mix (u : UInt32) : #{w : UInt64 | upperHalf (mix w) = u} = 2 ^ 32 := by
  rw [← card_upperHalf u]
  exact card_bijective mix mix_bijective fun w => by rw [mem_filter_univ, mem_filter_univ]

end SplitMix

end Luminaire
