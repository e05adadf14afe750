import Luminaire.Proofs.Color.Draws
import Luminaire.Proofs.Color.Fraction
import Luminaire.Proofs.Color.Mixing

/-!
# Uniform hues

The position of the walk after some draws is the seed and as many strides, modulo the number of words
(`toNat_position_after`). The stride is odd, so two positions are the same only if the draws between
them are a multiple of `2 ^ 64` (`after_eq_after_iff`). Any `2 ^ 64` draws in a row therefore meet
each word once, whatever the seed is and however many hues were drawn before. Mixing only
rearranges the words, so each number stands behind `2 ^ 32` of these draws, and as hues are exact
fractions, different numbers are different hues.
-/

namespace Luminaire

namespace SplitMix

open HueSource Binary64 Function Finset

/-- The number behind the hue that comes after that many draws. -/
def number (draws : ℕ) (s : SplitMix) : UInt32 := (after draws s).step.output

theorem hue_eq (k : ℕ) (s : SplitMix) : hue k s = hueOfOutput (number k s) := rfl

theorem after_succ_eq_step (k : ℕ) (s : SplitMix) : after (k + 1) s = (after k s).step :=
  after_succ k s

theorem toNat_position_after (k : ℕ) (s : SplitMix) :
    (after k s).position.toNat = (s.position.toNat + k * stride.toNat) % 2 ^ 64 := by
  induction k with
  | zero =>
      rw [Nat.zero_mul, Nat.add_zero, Nat.mod_eq_of_lt s.position.toNat_lt]
      rfl
  | succ k ih =>
      rw [after_succ_eq_step, step, UInt64.toNat_add, ih, Nat.mod_add_mod, Nat.succ_mul,
        Nat.add_assoc]

theorem after_eq_after_iff (j k : ℕ) (s : SplitMix) :
    after j s = after k s ↔ j ≡ k [MOD 2 ^ 64] := by
  have hposition : after j s = after k s ↔
      s.position.toNat + j * stride.toNat ≡ s.position.toNat + k * stride.toNat [MOD 2 ^ 64] := by
    rw [SplitMix.mk.injEq, ← UInt64.toNat_inj, toNat_position_after, toNat_position_after]
    rfl
  have hcoprime : Nat.Coprime (2 ^ 64) stride.toNat := coprime_of_odd (by decide)
  rw [hposition]
  constructor
  · intro h
    exact (Nat.ModEq.add_left_cancel' _ h).cancel_right_of_coprime hcoprime
  · intro h
    exact (h.mul_right _).add_left _

theorem after_eq_self_iff (k : ℕ) (s : SplitMix) : after k s = s ↔ 2 ^ 64 ∣ k :=
  (after_eq_after_iff k 0 s).trans Nat.modEq_zero_iff_dvd

theorem isLeast_return (s : SplitMix) : IsLeast {k | 0 < k ∧ after k s = s} (2 ^ 64) := by
  refine ⟨⟨Nat.two_pow_pos 64, (after_eq_self_iff _ s).2 dvd_rfl⟩, ?_⟩
  rintro k ⟨hpos, hreturn⟩
  exact Nat.le_of_dvd hpos ((after_eq_self_iff k s).1 hreturn)

theorem injOn_position (start : ℕ) (s : SplitMix) :
    Set.InjOn (fun k => (after k s).step.position) (Ico start (start + 2 ^ 64)) := by
  intro j hj k hk (h : (after j s).step.position = (after k s).step.position)
  have hsucc : after (j + 1) s = after (k + 1) s := by
    rw [after_succ_eq_step, after_succ_eq_step, SplitMix.mk.injEq, h]
  have hmod : j % 2 ^ 64 = k % 2 ^ 64 :=
    Nat.ModEq.add_right_cancel' 1 ((after_eq_after_iff _ _ s).1 hsucc)
  obtain ⟨hj, hj'⟩ := mem_Ico.1 hj
  obtain ⟨hk, hk'⟩ := mem_Ico.1 hk
  omega

theorem image_position (start : ℕ) (s : SplitMix) :
    (Ico start (start + 2 ^ 64)).image (fun k => (after k s).step.position) = univ := by
  apply eq_univ_of_card
  rw [card_image_of_injOn (injOn_position start s), Nat.card_Ico, Nat.add_sub_cancel_left,
    ← FinEnum.card_eq_fintypeCard, FinEnum.card_UInt64]

/-- What happens to a position during a turn happens to the words, equally often. -/
theorem card_positions (start : ℕ) (s : SplitMix) (p : UInt64 → Prop) [DecidablePred p] :
    #{k ∈ Ico start (start + 2 ^ 64) | p (after k s).step.position} = #{w : UInt64 | p w} := by
  rw [← image_position start s, filter_image, card_image_of_injOn]
  exact (injOn_position start s).mono (coe_subset.2 (filter_subset _ _))

theorem card_number (start : ℕ) (s : SplitMix) (u : UInt32) :
    #{k ∈ Ico start (start + 2 ^ 64) | number k s = u} = 2 ^ 32 :=
  (card_positions start s fun w => upperHalf (mix w) = u).trans (card_upperHalf_mix u)

theorem value?_hue (k : ℕ) (s : SplitMix) :
    value? (hue k s) = some (((number k s).toNat : ℚ) / 2 ^ 32) := by
  rw [hue_eq, value?_hueOfOutput]

theorem value?_hue_eq_iff (k : ℕ) (s : SplitMix) (u : UInt32) :
    value? (hue k s) = some ((u.toNat : ℚ) / 2 ^ 32) ↔ number k s = u := by
  rw [value?_hue, Option.some_inj, div_left_inj' (by norm_num), Nat.cast_inj, UInt32.toNat_inj]

/-- After `k` draws the source is `k` strides away from its seed, and it is back at the seed after
`2 ^ 64` draws and no earlier. Mixing takes the words one to one to the words. Every hue is, exactly,
the fraction of `2 ^ 32` that its number makes, and among any `2 ^ 64` draws in a row every number
and every hue comes `2 ^ 32` times. -/
theorem hues_exactly_uniform (seed : UInt64) (start : ℕ) (u : UInt32) :
    let s : SplitMix := ⟨seed⟩
    (∀ k, (after k s).position.toNat = (seed.toNat + k * 0x9e3779b97f4a7c15) % 2 ^ 64) ∧
    IsLeast {k | 0 < k ∧ after k s = s} (2 ^ 64) ∧
    Bijective mix ∧
    #{k ∈ Ico start (start + 2 ^ 64) | number k s = u} = 2 ^ 32 ∧
    (∀ k, value? (hue k s) = some (((number k s).toNat : ℚ) / 2 ^ 32)) ∧
    #{k ∈ Ico start (start + 2 ^ 64) | value? (hue k s) = some ((u.toNat : ℚ) / 2 ^ 32)} =
      2 ^ 32 := by
  intro s
  refine ⟨fun k => toNat_position_after k s, isLeast_return s, mix_bijective,
    card_number start s u, fun k => value?_hue k s, ?_⟩
  rw [filter_congr fun k _ => value?_hue_eq_iff k s u]
  exact card_number start s u

end SplitMix

end Luminaire
