import Luminaire.Board.Basic
import Luminaire.Strobe

/-!
# The DMX patch

A lighting desk sends a universe: a row of bytes, one for each slot. The patch says which slots
belong to a board. From its first slot on come three slots for the color of each channel, then
one slot for the mode of each channel, and one slot for the strobe at the end, so a board of `n`
channels takes `4 * n + 1` slots in a row. A universe has no memory: whatever it says replaces
the targets, the modes and the strobe level, and slots that were not sent count as zero.
-/

namespace Luminaire

namespace Dmx

/-- The number of slots in a universe. -/
def universeSize : Nat := 512

/-- How many steps of a strobe slot make one strobe level. -/
def strobeDivisor : UInt8 := 255 / Strobe.maxLevel

/-- The value of a slot; one that was not sent counts as zero. -/
def slot (slots : Array UInt8) (i : Nat) : UInt8 := slots.getD i 0

/-- The place of a board in a universe. -/
structure Patch where
  /-- The first slot of the board. -/
  start : Nat
deriving DecidableEq

namespace Patch

/-- The slot for the red of a channel; green and blue follow. -/
def colorSlot (p : Patch) (i : Nat) : Nat := p.start + i * 3

/-- The slot for the mode of a channel on a board of `n` channels. -/
def modeSlot (p : Patch) (i n : Nat) : Nat := p.start + n * 3 + i

/-- The slot for the strobe of a board of `n` channels. -/
def strobeSlot (p : Patch) (n : Nat) : Nat := p.start + n * 4

/-- The color in the slots of a channel. -/
def color (p : Patch) (slots : Array UInt8) (i : Nat) : Color where
  red := slot slots (p.colorSlot i)
  green := slot slots (p.colorSlot i + 1)
  blue := slot slots (p.colorSlot i + 2)

/-- The mode in the slot of a channel: zero is normal, anything else is fade. -/
def mode (p : Patch) (slots : Array UInt8) (i n : Nat) : FadeMode :=
  if slot slots (p.modeSlot i n) = 0 then FadeMode.normal else FadeMode.fade

/-- The strobe level in the slot of a board. -/
def strobe (p : Patch) (slots : Array UInt8) (n : Nat) : UInt8 :=
  slot slots (p.strobeSlot n) / strobeDivisor

/-- The board as the universe has it. -/
def apply {n : Nat} (p : Patch) (slots : Array UInt8) (b : Board n) : Board n where
  channels := b.channels.mapIdx fun i c =>
    { c with mode := p.mode slots i n, target := p.color slots i }
  strobe := p.strobe slots n
  changed := b.changed

theorem getElem_channels_apply {n : Nat} (p : Patch) (slots : Array UInt8) (b : Board n) (i : Nat)
    (h : i < n) :
    (p.apply slots b).channels[i] =
      { b.channels[i] with mode := p.mode slots i n, target := p.color slots i } := by
  simp [apply]

end Patch

end Dmx

end Luminaire
