import Luminaire.Board.Basic

/-!
# Convergence of a board

On a tick every channel advances by itself. The board is changed if some channel was still on
its way, and stays changed until the outputs are written.
-/

namespace Luminaire

namespace Board

variable {n : Nat}

/-- Some channel has not arrived at its target. -/
def isConverging (b : Board n) : Bool := b.channels.any Channel.isConverging

/-- The board one tick later. -/
def advance (b : Board n) : Board n where
  channels := b.channels.map Channel.advance
  strobe := b.strobe
  changed := b.changed || b.isConverging

@[simp] theorem getElem_channels_advance (b : Board n) (i : Nat) (h : i < n) :
    b.advance.channels[i] = b.channels[i].advance := by
  simp [advance]

@[simp] theorem strobe_advance (b : Board n) : b.advance.strobe = b.strobe := rfl

theorem changed_advance (b : Board n) : b.advance.changed = (b.changed || b.isConverging) := rfl

theorem isConverging_iff (b : Board n) :
    b.isConverging = true ↔ ∃ i, ∃ h : i < n, b.channels[i].isConverging = true := by
  simp [isConverging, Vector.any_eq_true]

end Board

end Luminaire
