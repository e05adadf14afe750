import Luminaire.Board.Convergence
import Mathlib.Logic.Function.Iterate

/-!
# How long a fade takes

A channel that is left alone arrives, and its `remainingTicks` say when: every tick takes one from
them, or all of them if the channel jumps. They are a byte, so 255 ticks are enough for any two
colors. A tick moves nothing but the shown color; what a channel is set to is its `Goal`.
-/

namespace Luminaire

namespace Component

theorem toNat_distance_approach (current target : UInt8) :
    (distance (approach current target) target).toNat = (distance current target).toNat - 1 := by
  rw [toNat_distance, toNat_distance]
  rcases Nat.lt_trichotomy current.toNat target.toNat with hlt | heq | hgt
  · rw [toNat_approach_of_lt (UInt8.lt_iff_toNat_lt.2 hlt)]
    omega
  · obtain rfl := UInt8.toNat_inj.1 heq
    rw [approach_self]
    omega
  · rw [toNat_approach_of_gt (UInt8.lt_iff_toNat_lt.2 hgt)]
    omega

theorem toNat_distance_eq_zero_iff (a b : UInt8) : (distance a b).toNat = 0 ↔ a = b := by
  rw [toNat_distance, ← UInt8.toNat_inj]
  omega

end Component

namespace Color

theorem toNat_distance_approach (c target : Color) :
    (distance (c.approach target) target).toNat = (distance c target).toNat - 1 := by
  rw [toNat_distance, toNat_distance]
  simp only [approach, Component.toNat_distance_approach]
  omega

theorem toNat_distance_eq_zero_iff (a b : Color) : (distance a b).toNat = 0 ↔ a = b := by
  have hmax : (distance a b).toNat = 0 ↔ (Component.distance a.red b.red).toNat = 0 ∧
      (Component.distance a.green b.green).toNat = 0 ∧
      (Component.distance a.blue b.blue).toNat = 0 := by
    rw [toNat_distance]
    omega
  rw [hmax]
  simp only [Component.toNat_distance_eq_zero_iff]
  cases a
  cases b
  rw [mk.injEq]

end Color

/-- What a channel is set to. -/
structure Goal where
  target : Color
  base : Color
  brightness : UInt8
  status : Status
  mode : FadeMode
deriving DecidableEq

namespace Channel

def goal (c : Channel) : Goal where
  target := c.target
  base := c.base
  brightness := c.brightness
  status := c.status
  mode := c.mode

@[simp] theorem goal_advance (c : Channel) : c.advance.goal = c.goal := by
  rw [advance]
  split <;> rfl

theorem isConverging_eq_false_iff (c : Channel) :
    c.isConverging = false ↔ c.current = c.target := by
  simp [isConverging]

theorem toNat_remainingTicks_eq_zero_iff (c : Channel) :
    c.remainingTicks.toNat = 0 ↔ c.isConverging = false := by
  rw [isConverging_eq_false_iff]
  exact Color.toNat_distance_eq_zero_iff c.current c.target

theorem toNat_remainingTicks_advance_le (c : Channel) :
    c.advance.remainingTicks.toNat ≤ c.remainingTicks.toNat - 1 := by
  cases h : c.isConverging with
  | false =>
      have hzero : c.remainingTicks.toNat = 0 := (toNat_remainingTicks_eq_zero_iff c).2 h
      rw [advance_of_arrived h]
      exact Nat.le_of_eq (hzero.trans (by rw [hzero]))
  | true =>
      rw [advance_of_converging h]
      show (c.nextCurrent.distance c.target).toNat ≤ _
      rw [nextCurrent]
      cases c.mode with
      | normal =>
          rw [(Color.toNat_distance_eq_zero_iff c.target c.target).2 rfl]
          exact Nat.zero_le _
      | fade => exact Nat.le_of_eq (Color.toNat_distance_approach c.current c.target)

theorem goal_iterate_advance (c : Channel) (ticks : Nat) : (advance^[ticks] c).goal = c.goal := by
  induction ticks with
  | zero => rfl
  | succ ticks ih => rw [Function.iterate_succ_apply', goal_advance, ih]

theorem toNat_remainingTicks_iterate_advance_le (c : Channel) (ticks : Nat) :
    (advance^[ticks] c).remainingTicks.toNat ≤ c.remainingTicks.toNat - ticks := by
  induction ticks with
  | zero => exact Nat.le_refl _
  | succ ticks ih =>
      have hlast := toNat_remainingTicks_advance_le (advance^[ticks] c)
      rw [Function.iterate_succ_apply']
      omega

/-- Within 255 ticks every channel arrives at its target. -/
theorem current_iterate_advance (c : Channel) {ticks : Nat} (h : 255 ≤ ticks) :
    (advance^[ticks] c).current = c.target := by
  have hle := toNat_remainingTicks_iterate_advance_le c ticks
  have hbyte := c.remainingTicks.toNat_lt
  have harrived : (advance^[ticks] c).isConverging = false := by
    rw [← toNat_remainingTicks_eq_zero_iff]
    omega
  exact ((isConverging_eq_false_iff _).1 harrived).trans
    (congrArg Goal.target (goal_iterate_advance c ticks))

end Channel

namespace Board

variable {n : Nat}

theorem getElem_channels_iterate_advance (b : Board n) (ticks i : Nat) (h : i < n) :
    (advance^[ticks] b).channels[i] = Channel.advance^[ticks] b.channels[i] := by
  induction ticks with
  | zero => rfl
  | succ ticks ih =>
      rw [Function.iterate_succ_apply', Function.iterate_succ_apply', getElem_channels_advance, ih]

theorem isConverging_eq_false_iff (b : Board n) :
    b.isConverging = false ↔ ∀ i (h : i < n), b.channels[i].isConverging = false := by
  rw [← Bool.not_eq_true, isConverging_iff]
  simp

theorem getElem_channels_advance_of_arrived {b : Board n} (h : b.isConverging = false) (i : Nat)
    (hi : i < n) : b.advance.channels[i] = { b.channels[i] with dirty := false } := by
  rw [getElem_channels_advance,
    Channel.advance_of_arrived ((isConverging_eq_false_iff b).1 h i hi)]

theorem changed_advance_of_arrived {b : Board n} (h : b.isConverging = false) :
    b.advance.changed = b.changed := by
  rw [changed_advance, h, Bool.or_false]

end Board

end Luminaire
