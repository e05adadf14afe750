import Luminaire.Board.Basic
import Luminaire.Duty.Curve

/-!
# Frames

A frame holds three duties for each channel of a board. `Board.render` is the frame that shows
the board; a channel that is off is rendered dark whatever its color. The `Output` remembers the
frame that the lamps show, and `Output.flush` writes a new one only if the board has changed.
Writing brings the outputs up to date, so it clears the changed flag and the dirty flags of the
channels.
-/

namespace Luminaire

/-- The duties of one channel. -/
structure Duties where
  red : UInt16
  green : UInt16
  blue : UInt16
deriving DecidableEq

namespace Duties

/-- All lamps of the channel off. -/
def dark : Duties := ⟨0, 0, 0⟩

/-- The duties that show a color. -/
def ofColor (c : Color) : Duties where
  red := Duty.ofComponent c.red
  green := Duty.ofComponent c.green
  blue := Duty.ofComponent c.blue

/-- The duties in the order of the wires. -/
def toList (d : Duties) : List UInt16 := [d.red, d.green, d.blue]

end Duties

namespace Channel

/-- The duties that show the channel. -/
def duties (c : Channel) : Duties :=
  match c.status with
  | .on => Duties.ofColor c.current
  | .off => Duties.dark

end Channel

/-- Duties for `n` channels. -/
abbrev Frame (n : Nat) := Vector Duties n

namespace Frame

/-- All channels dark. -/
def dark (n : Nat) : Frame n := Vector.replicate n Duties.dark

/-- The duties of all channels in a row, three for each. -/
def flatten {n : Nat} (f : Frame n) : List UInt16 := f.toList.flatMap Duties.toList

end Frame

namespace Board

variable {n : Nat}

/-- The frame that shows the board. -/
def render (b : Board n) : Frame n := b.channels.map Channel.duties

/-- The board after its outputs have been written. -/
def settle (b : Board n) : Board n where
  channels := b.channels.map fun c => { c with dirty := false }
  strobe := b.strobe
  changed := false

/-- Writing the outputs changes no duty. -/
@[simp] theorem render_settle (b : Board n) : b.settle.render = b.render := by
  simp only [render, settle, Vector.map_map]
  rfl

end Board

/-- The outputs of a node, with the frame that was last written. -/
structure Output (n : Nat) where
  shown : Frame n
deriving DecidableEq

namespace Output

variable {n : Nat}

/-- After power-up the lamps are dark. -/
def powerUp (n : Nat) : Output n := ⟨Frame.dark n⟩

/-- The outputs and the board after a flush, and the frame that was written, if one was. -/
def flush (o : Output n) (b : Board n) : Output n × Board n × Option (Frame n) :=
  if b.changed then (⟨b.render⟩, b.settle, some b.render) else (o, b, none)

theorem flush_of_changed (o : Output n) {b : Board n} (h : b.changed = true) :
    o.flush b = (⟨b.render⟩, b.settle, some b.render) := by
  rw [flush, if_pos h]

theorem flush_of_unchanged (o : Output n) {b : Board n} (h : b.changed = false) :
    o.flush b = (o, b, none) := by
  rw [flush, h]
  rfl

end Output

end Luminaire
