import Luminaire.Color.Basic

/-!
# Channels

A channel is one lamp of a fixture board. It shows `current` and is on its way to `target`. What
people set is the undimmed color `base` and the `brightness`; `redim` turns the two into a new
target. On every tick a channel that has not arrived advances: at once in normal mode, by one
unit per component in fade mode.

Two flags record what has not been passed on. `dirty` says that the last tick moved the shown
color, `pendingPublish` that observers have not been told of the present state.
-/

namespace Luminaire

/-- Whether a channel gives light. -/
inductive Status where
  | on
  | off
deriving DecidableEq

/-- How the shown color follows the target. -/
inductive FadeMode where
  /-- Jump to the target on the next tick. -/
  | normal
  /-- Move every component by one per tick. -/
  | fade
deriving DecidableEq

namespace Status

/-- The digit `1` is on, anything else is off. -/
def ofDigit (digit : UInt8) : Status := if digit = 1 then on else off

/-- The digit that stands for the status. -/
def digit : Status → UInt8
  | on => 1
  | off => 0

@[simp] theorem ofDigit_digit (s : Status) : ofDigit s.digit = s := by
  cases s <;> rfl

end Status

namespace FadeMode

/-- The digit `1` is fade, anything else is normal. -/
def ofDigit (digit : UInt8) : FadeMode := if digit = 1 then fade else normal

/-- The digit that stands for the mode. -/
def digit : FadeMode → UInt8
  | normal => 0
  | fade => 1

@[simp] theorem ofDigit_digit (m : FadeMode) : ofDigit m.digit = m := by
  cases m <;> rfl

end FadeMode

/-- The state of one lamp. -/
structure Channel where
  /-- The color shown now. -/
  current : Color
  /-- The color to arrive at. -/
  target : Color
  /-- The color before dimming. -/
  base : Color
  brightness : UInt8
  status : Status
  mode : FadeMode
  /-- The last tick moved the shown color and no output has been written since. -/
  dirty : Bool
  /-- Observers have not seen the latest state. -/
  pendingPublish : Bool
deriving DecidableEq

namespace Channel

/-- After power-up a channel is off and black, jumps to its target and has full brightness. -/
def powerUp : Channel where
  current := Color.black
  target := Color.black
  base := Color.black
  brightness := 255
  status := Status.off
  mode := FadeMode.normal
  dirty := false
  pendingPublish := false

/-- The shown color is not the target yet. -/
def isConverging (c : Channel) : Bool := c.current != c.target

/-- The number of ticks a fade needs until the shown color is the target. -/
def remainingTicks (c : Channel) : UInt8 := c.current.distance c.target

/-- The target that base color and brightness call for. -/
def redim (c : Channel) : Channel :=
  { c with target := c.base.dim c.brightness }

/-- The shown color one tick later. -/
def nextCurrent (c : Channel) : Color :=
  match c.mode with
  | .normal => c.target
  | .fade => c.current.approach c.target

/-- One tick: a channel on its way moves, becomes dirty and has something to tell; one that has
arrived stays and is no longer dirty. -/
def advance (c : Channel) : Channel :=
  if c.isConverging then
    { c with current := c.nextCurrent, dirty := true, pendingPublish := true }
  else
    { c with dirty := false }

theorem isConverging_iff (c : Channel) : c.isConverging = true ↔ c.current ≠ c.target := by
  simp [isConverging]

theorem advance_of_converging {c : Channel} (h : c.isConverging = true) :
    c.advance = { c with current := c.nextCurrent, dirty := true, pendingPublish := true } := by
  rw [advance, if_pos h]

theorem advance_of_arrived {c : Channel} (h : c.isConverging = false) :
    c.advance = { c with dirty := false } := by
  rw [advance, h]
  rfl

end Channel

end Luminaire
