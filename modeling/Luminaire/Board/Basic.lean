import Luminaire.Channel

/-!
# Boards

A board is the whole state of a node's lamps: its channels, the strobe level they share, and the
flag `changed`, which says that the outputs no longer show the state.

Every change is addressed to a `Destination`. An operation has the result `none` if it is
refused: a single channel that does not exist is refused, and so is a broadcast that was
replayed, because the broker repeats old messages after a reconnect and an old broadcast would
overwrite newer settings of single channels. A refused operation has no board to go on with, so
it cannot have changed one.
-/

namespace Luminaire

/-- The channels that a change is meant for. -/
inductive Destination where
  /-- Every channel. -/
  | all
  /-- The channel with this index, counted from zero. -/
  | channel (index : Nat)
deriving DecidableEq

namespace Destination

/-- The destination of a channel number in a message: `0` is every channel, `1` to `count` are the
channels in order, and there are no others. -/
def ofNumber? (number : UInt8) (count : Nat) : Option Destination :=
  if number = 0 then some all
  else if number.toNat ≤ count then some (channel (number.toNat - 1))
  else none

/-- The change is meant for every channel. -/
def isBroadcast : Destination → Bool
  | all => true
  | channel _ => false

end Destination

/-- The state of `n` channels. -/
structure Board (n : Nat) where
  channels : Vector Channel n
  /-- The strobe level that all channels share. -/
  strobe : UInt8
  /-- The outputs do not show the state. -/
  changed : Bool
deriving DecidableEq

namespace Board

variable {n : Nat}

/-- The number of channels of a common node. -/
def standardSize : Nat := 10

/-- All channels as after power-up. -/
def powerUp (n : Nat) : Board n where
  channels := Vector.replicate n Channel.powerUp
  strobe := 0
  changed := false

/-- The board with `f` applied to the channels that the destination names. -/
def update (b : Board n) (d : Destination) (replayed : Bool) (f : Channel → Channel) :
    Option (Board n) :=
  match d with
  | .channel i =>
      if h : i < n then some { b with channels := b.channels.set i (f b.channels[i]) } else none
  | .all => if replayed then none else some { b with channels := b.channels.map f }

/-- The color to arrive at, whatever base color and brightness call for. -/
def setTarget (b : Board n) (d : Destination) (color : Color) (replayed : Bool) :
    Option (Board n) :=
  b.update d replayed fun c => { c with target := color }

/-- The undimmed color. The target stays until `redim`. -/
def setBase (b : Board n) (d : Destination) (color : Color) (replayed : Bool) :
    Option (Board n) :=
  b.update d replayed fun c => { c with base := color, pendingPublish := true }

/-- The target that base color and brightness call for. -/
def redim (b : Board n) (d : Destination) (replayed : Bool) : Option (Board n) :=
  b.update d replayed Channel.redim

/-- The brightness. The target stays until `redim`. -/
def setBrightness (b : Board n) (d : Destination) (brightness : UInt8) (replayed : Bool) :
    Option (Board n) :=
  b.update d replayed fun c => { c with brightness := brightness, pendingPublish := true }

/-- The way the shown color follows the target. -/
def setMode (b : Board n) (d : Destination) (mode : FadeMode) (replayed : Bool) :
    Option (Board n) :=
  b.update d replayed fun c => { c with mode := mode, pendingPublish := true }

/-- The status. It shows at once, so the outputs have to be written. -/
def setStatus (b : Board n) (d : Destination) (status : Status) (replayed : Bool) :
    Option (Board n) :=
  (b.update d replayed fun c => { c with status := status, pendingPublish := true }).map
    fun b => { b with changed := true }

/-- The strobe level. -/
def setStrobe (b : Board n) (level : UInt8) : Board n := { b with strobe := level }

/-- The same state with the outputs taken as up to date. -/
def clearChanged (b : Board n) : Board n := { b with changed := false }

theorem update_channel (b : Board n) {i : Nat} (h : i < n) (replayed : Bool)
    (f : Channel → Channel) :
    b.update (.channel i) replayed f =
      some { b with channels := b.channels.set i (f b.channels[i]) } := by
  rw [update, dif_pos h]

theorem update_channel_of_le (b : Board n) {i : Nat} (h : n ≤ i) (replayed : Bool)
    (f : Channel → Channel) : b.update (.channel i) replayed f = none := by
  rw [update, dif_neg (Nat.not_lt.2 h)]

theorem update_all_live (b : Board n) (f : Channel → Channel) :
    b.update .all false f = some { b with channels := b.channels.map f } := rfl

theorem update_all_replayed (b : Board n) (f : Channel → Channel) :
    b.update .all true f = none := rfl

end Board

end Luminaire
