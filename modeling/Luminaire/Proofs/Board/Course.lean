import Luminaire.Proofs.Board.Fading
import Mathlib.Data.Finset.Lattice.Fold
import Mathlib.Data.Fintype.Basic
import Mathlib.Order.Lattice.Nat

/-!
# The course of a fade

Where a channel is after some ticks can be said without going through them. A component has moved by
the number of ticks, or by its whole distance if that is less (`Component.Moved`), so components
arrive at different times, and the last to arrive is one with the largest distance. What a channel
still needs is a number of ticks, `ticksNeeded`, and every tick takes one from it. A tick moves some
channel exactly as long as there is a channel that needs ticks, so the ticks that do come first, and
there are as many of them as the slowest channel needs.
-/

namespace Luminaire

namespace Component

theorem toNat_approach (current target : UInt8) :
    (approach current target).toNat =
      max (min (current.toNat + 1) target.toNat) (current.toNat - 1) := by
  rcases Nat.lt_trichotomy current.toNat target.toNat with hlt | heq | hgt
  · rw [toNat_approach_of_lt (UInt8.lt_iff_toNat_lt.2 hlt)]
    omega
  · obtain rfl := UInt8.toNat_inj.1 heq
    rw [approach_self]
    omega
  · rw [toNat_approach_of_gt (UInt8.lt_iff_toNat_lt.2 hgt)]
    omega

/-- From `start` toward `target` by one unit for each tick, or by the whole distance if that is
less. -/
structure Moved (ticks : Nat) (start target now : UInt8) : Prop where
  up : start ≤ target →
    now.toNat = start.toNat + min ticks (distance start target).toNat ∧ now ≤ target
  down : target ≤ start →
    now.toNat + min ticks (distance start target).toNat = start.toNat ∧ target ≤ now

theorem moved_zero (start target : UInt8) : Moved 0 start target start := by
  constructor <;> simp

/-- One tick more. -/
theorem Moved.approach {ticks : Nat} {start target now : UInt8}
    (h : Moved ticks start target now) : Moved (ticks + 1) start target (approach now target) := by
  obtain ⟨hup, hdown⟩ := h
  simp only [UInt8.le_iff_toNat_le, toNat_distance] at hup hdown
  constructor
  · intro hle
    simp only [UInt8.le_iff_toNat_le, toNat_distance, toNat_approach] at hle ⊢
    have hbefore := hup hle
    omega
  · intro hle
    simp only [UInt8.le_iff_toNat_le, toNat_distance, toNat_approach] at hle ⊢
    have hbefore := hdown hle
    omega

end Component

/-- Each component has moved. -/
structure Color.Moved (ticks : Nat) (start target now : Color) : Prop where
  red : Component.Moved ticks start.red target.red now.red
  green : Component.Moved ticks start.green target.green now.green
  blue : Component.Moved ticks start.blue target.blue now.blue

namespace Channel

theorem current_advance (c : Channel) : c.advance.current = c.nextCurrent := by
  cases h : c.isConverging with
  | true => rw [advance_of_converging h]
  | false =>
      have harrived : c.current = c.target := (isConverging_eq_false_iff c).1 h
      rw [advance_of_arrived h, nextCurrent, harrived]
      cases c.mode with
      | normal => rfl
      | fade => exact (Color.approach_self c.target).symm

theorem pendingPublish_advance (c : Channel) :
    c.advance.pendingPublish = (c.pendingPublish || c.isConverging) := by
  cases h : c.isConverging with
  | true => simp [advance_of_converging h]
  | false => simp [advance_of_arrived h]

theorem dirty_advance (c : Channel) : c.advance.dirty = c.isConverging := by
  cases h : c.isConverging with
  | true => rw [advance_of_converging h]
  | false => rw [advance_of_arrived h]

/-- The number of ticks until the shown color is the target. -/
def ticksNeeded (c : Channel) : Nat :=
  if c.isConverging then
    match c.mode with
    | .normal => 1
    | .fade => c.remainingTicks.toNat
  else 0

theorem ticksNeeded_le_one {c : Channel} (h : c.mode = .normal) : c.ticksNeeded ≤ 1 := by
  rw [ticksNeeded, h]
  split <;> simp

theorem ticksNeeded_of_fade {c : Channel} (h : c.mode = .fade) :
    c.ticksNeeded = c.remainingTicks.toNat := by
  rw [ticksNeeded, h]
  cases hconverging : c.isConverging with
  | true => simp
  | false => simp [(toNat_remainingTicks_eq_zero_iff c).2 hconverging]

theorem ticksNeeded_pos_iff (c : Channel) : 0 < c.ticksNeeded ↔ c.isConverging = true := by
  rw [ticksNeeded]
  cases hconverging : c.isConverging with
  | false => simp
  | true =>
      have hremaining : c.remainingTicks.toNat ≠ 0 := by
        simp [toNat_remainingTicks_eq_zero_iff, hconverging]
      cases c.mode with
      | normal => simp
      | fade => simpa using Nat.pos_of_ne_zero hremaining

theorem target_advance (c : Channel) : c.advance.target = c.target :=
  congrArg Goal.target (goal_advance c)

theorem mode_advance (c : Channel) : c.advance.mode = c.mode :=
  congrArg Goal.mode (goal_advance c)

/-- A tick brings a channel one tick nearer to its target. -/
theorem ticksNeeded_advance (c : Channel) : c.advance.ticksNeeded = c.ticksNeeded - 1 := by
  cases hmode : c.mode with
  | normal =>
      have harrived : c.advance.isConverging = false := by
        rw [isConverging_eq_false_iff, current_advance, target_advance, nextCurrent, hmode]
      cases h : c.isConverging with
      | true => simp [ticksNeeded, harrived, h, hmode]
      | false => simp [ticksNeeded, harrived, h]
  | fade =>
      have hremaining : c.advance.remainingTicks.toNat = c.remainingTicks.toNat - 1 := by
        rw [remainingTicks, current_advance, target_advance, nextCurrent, hmode]
        exact Color.toNat_distance_approach c.current c.target
      rw [ticksNeeded_of_fade hmode, ticksNeeded_of_fade ((mode_advance c).trans hmode), hremaining]

/-- A channel on its way moves on every tick. -/
theorem current_advance_ne_iff (c : Channel) :
    c.advance.current ≠ c.current ↔ c.isConverging = true := by
  constructor
  · intro hmoved
    by_contra harrived
    rw [advance_of_arrived (Bool.eq_false_iff.2 harrived)] at hmoved
    exact hmoved rfl
  · intro hconverging hsame
    have hneeded : c.advance.ticksNeeded = c.ticksNeeded := by
      rw [advance_of_converging hconverging, ← current_advance, hsame]
      rfl
    have hpos := (ticksNeeded_pos_iff c).2 hconverging
    rw [ticksNeeded_advance] at hneeded
    omega

section Iterate

variable (c : Channel) (ticks : Nat)

theorem mode_iterate_advance : (advance^[ticks] c).mode = c.mode :=
  congrArg Goal.mode (goal_iterate_advance c ticks)

theorem target_iterate_advance : (advance^[ticks] c).target = c.target :=
  congrArg Goal.target (goal_iterate_advance c ticks)

theorem ticksNeeded_iterate_advance :
    (advance^[ticks] c).ticksNeeded = c.ticksNeeded - ticks := by
  induction ticks with
  | zero => rfl
  | succ ticks ih =>
      rw [Function.iterate_succ_apply', ticksNeeded_advance, ih]
      omega

theorem isConverging_iterate_advance :
    (advance^[ticks] c).isConverging = true ↔ ticks < c.ticksNeeded := by
  rw [← ticksNeeded_pos_iff, ticksNeeded_iterate_advance]
  omega

theorem current_iterate_advance_eq_target_iff :
    (advance^[ticks] c).current = c.target ↔ c.ticksNeeded ≤ ticks := by
  rw [← target_iterate_advance c ticks, ← isConverging_eq_false_iff, ← Bool.not_eq_true,
    isConverging_iterate_advance, Nat.not_lt]

/-- From the first tick on a channel that was on its way has something to tell. -/
theorem pendingPublish_iterate_advance :
    (advance^[ticks] c).pendingPublish =
      (c.pendingPublish || (decide (1 ≤ ticks) && c.isConverging)) := by
  induction ticks with
  | zero => simp
  | succ ticks ih =>
      rw [Function.iterate_succ_apply', pendingPublish_advance, ih]
      cases hstart : c.isConverging with
      | false =>
          have hlast : (advance^[ticks] c).isConverging = false := by
            rw [← Bool.not_eq_true, isConverging_iterate_advance]
            have hnone : ¬ 0 < c.ticksNeeded := by simp [ticksNeeded_pos_iff, hstart]
            omega
          simp [hlast]
      | true =>
          cases ticks with
          | zero => simp [hstart]
          | succ ticks => simp

theorem moved_iterate_advance {c : Channel} (h : c.mode = .fade) (ticks : Nat) :
    Color.Moved ticks c.current c.target (advance^[ticks] c).current := by
  induction ticks with
  | zero =>
      exact ⟨Component.moved_zero _ _, Component.moved_zero _ _, Component.moved_zero _ _⟩
  | succ ticks ih =>
      rw [Function.iterate_succ_apply', current_advance, nextCurrent, mode_iterate_advance, h,
        target_iterate_advance]
      exact ⟨ih.red.approach, ih.green.approach, ih.blue.approach⟩

end Iterate

end Channel

namespace Board

variable {n : Nat}

/-- One tick: whether it moved some channel, and the board after it. -/
def tick (b : Board n) : Bool × Board n := (b.isConverging, b.advance)

/-- Some ticks with nothing in between: whether each of them moved some channel, the first one first,
and the board after all of them. -/
def ticks (b : Board n) : Nat → List Bool × Board n
  | 0 => ([], b)
  | k + 1 =>
      let (moved, b) := b.tick
      let (later, b) := b.ticks k
      (moved :: later, b)

theorem snd_ticks (b : Board n) (k : Nat) : (b.ticks k).2 = advance^[k] b := by
  induction k generalizing b with
  | zero => rfl
  | succ k ih => exact ih b.advance

theorem getElem_channels_ticks (b : Board n) (k i : Nat) (h : i < n) :
    (b.ticks k).2.channels[i] = Channel.advance^[k] b.channels[i] := by
  simp only [snd_ticks, getElem_channels_iterate_advance]

theorem strobe_ticks (b : Board n) (k : Nat) : (b.ticks k).2.strobe = b.strobe := by
  induction k generalizing b with
  | zero => rfl
  | succ k ih => exact ih b.advance

/-- The mark of a change is set by each tick that moves some channel. -/
theorem changed_ticks (b : Board n) (k : Nat) :
    (b.ticks k).2.changed = true ↔ b.changed = true ∨ true ∈ (b.ticks k).1 := by
  induction k generalizing b with
  | zero => simp [ticks]
  | succ k ih =>
      show (b.advance.ticks k).2.changed = true ↔
        b.changed = true ∨ true ∈ b.isConverging :: (b.advance.ticks k).1
      rw [ih, changed_advance, Bool.or_eq_true, List.mem_cons, or_assoc, eq_comm (a := true)]

/-- The number of ticks until all channels have arrived. -/
def ticksNeeded (b : Board n) : Nat := Finset.univ.sup fun i => (b.channels.get i).ticksNeeded

theorem lt_ticksNeeded_iff (b : Board n) (k : Nat) :
    k < b.ticksNeeded ↔ ∃ i, ∃ h : i < n, k < b.channels[i].ticksNeeded := by
  simp only [ticksNeeded, Finset.lt_sup_iff, Finset.mem_univ, true_and, Fin.exists_iff]
  rfl

theorem ticksNeeded_pos_iff (b : Board n) : 0 < b.ticksNeeded ↔ b.isConverging = true := by
  rw [lt_ticksNeeded_iff, isConverging_iff]
  simp only [Channel.ticksNeeded_pos_iff]

theorem ticksNeeded_advance (b : Board n) : b.advance.ticksNeeded = b.ticksNeeded - 1 := by
  refine eq_of_forall_lt_iff fun k => ?_
  rw [Nat.lt_sub_iff_add_lt, lt_ticksNeeded_iff, lt_ticksNeeded_iff]
  simp only [getElem_channels_advance, Channel.ticksNeeded_advance, Nat.lt_sub_iff_add_lt]

/-- The ticks that move some channel come first, and there are as many as are needed. -/
theorem fst_ticks (b : Board n) (k : Nat) :
    (b.ticks k).1 =
      List.replicate (min k b.ticksNeeded) true ++ List.replicate (k - b.ticksNeeded) false := by
  induction k generalizing b with
  | zero => simp [ticks]
  | succ k ih =>
      show b.isConverging :: (b.advance.ticks k).1 = _
      rw [ih, ticksNeeded_advance]
      cases h : b.ticksNeeded with
      | zero =>
          have harrived : b.isConverging = false := by
            simp [← Bool.not_eq_true, ← ticksNeeded_pos_iff, h]
          simp [harrived, List.replicate_succ]
      | succ needed =>
          have hconverging : b.isConverging = true := by
            simp [← ticksNeeded_pos_iff, h]
          simp [hconverging, List.replicate_succ]

/-- Where a board is after some ticks with nothing in between. What it is set to has not changed. A
channel that jumps has arrived with the first tick; each component of one that fades has moved by one
unit a tick as far as the target, and the channel has arrived when its remaining ticks are over. The
channels that were on their way have something to tell, and the dirty ones are those that the last
tick moved. The ticks that moved some channel are the first ones, as many as the slowest channel
needed, and the board is marked as changed if there was one. -/
theorem ticks_in_closed_form (b : Board n) (k : Nat) :
    (∀ i (h : i < n), (b.ticks k).2.channels[i].goal = b.channels[i].goal) ∧
    (b.ticks k).2.strobe = b.strobe ∧
    (∀ i (h : i < n), b.channels[i].mode = .normal → 1 ≤ k →
      (b.ticks k).2.channels[i].current = b.channels[i].target) ∧
    (∀ i (h : i < n), b.channels[i].mode = .fade →
      Color.Moved k b.channels[i].current b.channels[i].target (b.ticks k).2.channels[i].current ∧
      ((b.ticks k).2.channels[i].current = b.channels[i].target ↔
        b.channels[i].remainingTicks.toNat ≤ k)) ∧
    (∀ i (h : i < n), (b.ticks k).2.channels[i].pendingPublish =
      (b.channels[i].pendingPublish || (decide (1 ≤ k) && b.channels[i].isConverging))) ∧
    (∀ i (h : i < n), (b.ticks (k + 1)).2.channels[i].dirty = true ↔
      (b.ticks (k + 1)).2.channels[i].current ≠ (b.ticks k).2.channels[i].current) ∧
    (b.ticks k).1 =
      List.replicate (min k b.ticksNeeded) true ++ List.replicate (k - b.ticksNeeded) false ∧
    ((b.ticks k).2.changed = true ↔ b.changed = true ∨ true ∈ (b.ticks k).1) := by
  simp only [getElem_channels_ticks, Function.iterate_succ_apply']
  refine ⟨fun i h => ?_, strobe_ticks b k, fun i h hmode hk => ?_, fun i h hmode => ⟨?_, ?_⟩,
    fun i h => ?_, fun i h => ?_, fst_ticks b k, changed_ticks b k⟩
  · exact Channel.goal_iterate_advance b.channels[i] k
  · rw [Channel.current_iterate_advance_eq_target_iff]
    exact (Channel.ticksNeeded_le_one hmode).trans hk
  · exact Channel.moved_iterate_advance hmode k
  · rw [Channel.current_iterate_advance_eq_target_iff, Channel.ticksNeeded_of_fade hmode]
  · exact Channel.pendingPublish_iterate_advance b.channels[i] k
  · rw [Channel.dirty_advance, Channel.current_advance_ne_iff]

/-- One channel fades and the other jumps. -/
theorem ticks_in_closed_form_pair :
    let b : Board 2 :=
      ⟨#v[{ Channel.powerUp with current := ⟨0, 3, 1⟩, target := ⟨2, 0, 1⟩, mode := .fade },
        { Channel.powerUp with target := ⟨9, 9, 9⟩ }], 0, false⟩
    (b.channels.get 0).mode = .fade ∧ (b.channels.get 1).mode = .normal ∧
    Color.Moved 2 ⟨0, 3, 1⟩ ⟨2, 0, 1⟩ ((b.ticks 2).2.channels.get 0).current ∧
    ((b.ticks 2).2.channels.get 0).current = ⟨2, 1, 1⟩ ∧
    ((b.ticks 2).2.channels.get 1).current = ⟨9, 9, 9⟩ ∧
    (b.ticks 4).1 = [true, true, true, false] ∧ (b.ticks 4).2.changed = true := by
  intro b
  obtain ⟨-, -, hjump, hfade, -⟩ := b.ticks_in_closed_form 2
  obtain ⟨-, -, -, -, -, -, hmoves, hchanged⟩ := b.ticks_in_closed_form 4
  have hlist : (b.ticks 4).1 = [true, true, true, false] := hmoves.trans (by decide +kernel)
  refine ⟨rfl, rfl, (hfade 0 (by decide) rfl).1, by decide +kernel, ?_, hlist, ?_⟩
  · exact hjump 1 (by decide) rfl (by decide)
  · exact hchanged.2 (Or.inr (by simp [hlist]))

end Board

end Luminaire
