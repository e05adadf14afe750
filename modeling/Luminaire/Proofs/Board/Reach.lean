import Luminaire.Board.Basic

/-!
# Which channels a change reaches

`Board.update` works on one channel or on all, and is refused in two ways. Read as a set of
channels a destination needs no case split: `covers d i` says that the change reaches channel `i`,
`accepted d n replayed` that a board of `n` channels takes it, and a change that is taken is
`mapOn`, which puts `f` on the covered channels and keeps the others.
-/

namespace Luminaire

namespace Destination

/-- The change reaches the channel with index `i`. -/
def covers : Destination → Nat → Bool
  | all, _ => true
  | channel j, i => j == i

/-- A board of `n` channels does not refuse the change. -/
def accepted : Destination → (n : Nat) → (replayed : Bool) → Bool
  | all, _, replayed => !replayed
  | channel j, n, _ => decide (j < n)

end Destination

namespace Board

variable {n : Nat}

/-- The board with `f` applied to the channels that the destination covers. -/
def mapOn (b : Board n) (d : Destination) (f : Channel → Channel) : Board n :=
  { b with channels := b.channels.mapIdx fun i c => if d.covers i then f c else c }

@[simp] theorem getElem_channels_mapOn (b : Board n) (d : Destination) (f : Channel → Channel)
    (i : Nat) (h : i < n) :
    (b.mapOn d f).channels[i] = if d.covers i then f b.channels[i] else b.channels[i] := by
  simp [mapOn]

@[simp] theorem strobe_mapOn (b : Board n) (d : Destination) (f : Channel → Channel) :
    (b.mapOn d f).strobe = b.strobe := rfl

@[simp] theorem changed_mapOn (b : Board n) (d : Destination) (f : Channel → Channel) :
    (b.mapOn d f).changed = b.changed := rfl

theorem ext_channels {b c : Board n} (hchannels : ∀ i (h : i < n), b.channels[i] = c.channels[i])
    (hstrobe : b.strobe = c.strobe) (hchanged : b.changed = c.changed) : b = c := by
  obtain ⟨channels, strobe, changed⟩ := b
  obtain ⟨channels', strobe', changed'⟩ := c
  obtain rfl : channels = channels' := Vector.ext hchannels
  obtain rfl : strobe = strobe' := hstrobe
  obtain rfl : changed = changed' := hchanged
  rfl

theorem update_eq_ite (b : Board n) (d : Destination) (replayed : Bool) (f : Channel → Channel) :
    b.update d replayed f = if d.accepted n replayed then some (b.mapOn d f) else none := by
  cases d with
  | all =>
      cases replayed with
      | true => rfl
      | false =>
          refine congrArg some (ext_channels ?_ rfl rfl)
          intro i h
          simp [Destination.covers]
  | channel j =>
      by_cases hj : j < n
      · have haccepted : (Destination.channel j).accepted n replayed = true := decide_eq_true hj
        rw [update_channel b hj, if_pos haccepted]
        refine congrArg some (ext_channels ?_ rfl rfl)
        intro i h
        rw [getElem_channels_mapOn, Vector.getElem_set]
        by_cases hij : j = i
        · subst hij
          simp [Destination.covers]
        · simp [Destination.covers, hij]
      · rw [update_channel_of_le b (Nat.le_of_not_lt hj)]
        simp [Destination.accepted, hj]

theorem update_eq_some_iff (b b' : Board n) (d : Destination) (replayed : Bool)
    (f : Channel → Channel) :
    b.update d replayed f = some b' ↔ d.accepted n replayed = true ∧ b' = b.mapOn d f := by
  rw [update_eq_ite]
  split
  next h => simp [h, eq_comm]
  next h => simp [h]

end Board

end Luminaire
