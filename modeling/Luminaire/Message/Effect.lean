import Luminaire.Board.Random
import Luminaire.Message.Grammar

/-!
# The effect of commands

A command is carried out as a whole or not at all. Each is a chain of board operations, and
since every operation of a chain has the same destination and the same origin, either all of
them are refused or none is; the result `none` therefore means that the command had no effect.

A message is *retained* if the broker repeats it from its store. A retained random color is
refused, because the channel would change its color at every reconnect; the strobe level is the
same for everyone and may be repeated.
-/

namespace Luminaire

namespace Status

/-- A lit color is shown by switching on, black by switching off. -/
def ofColor (c : Color) : Status := if c.isLit then on else off

end Status

namespace Command

variable {n : Nat} {η : Type} [HueSource η]

/-- The board and the hues after the command, or nothing if the command is refused. -/
def apply (command : Command) (b : Board n) (hues : η) (retained : Bool) :
    Option (Board n × η) :=
  match command with
  | .color d c => do
      let b ← b.setTarget d c retained
      let b ← b.setBase d c retained
      let b ← b.setBrightness d 255 retained
      let b ← b.setStatus d (Status.ofColor c) retained
      return (b, hues)
  | .baseColor d c => do
      let b ← b.setBase d c retained
      let b ← b.redim d retained
      return (b, hues)
  | .brightness d value => do
      let b ← b.setBrightness d value retained
      let b ← b.redim d retained
      return (b, hues)
  | .mode d m => do
      let b ← b.setMode d m retained
      return (b, hues)
  | .switch d s => do
      let b ← b.setStatus d s retained
      return (b, hues)
  | .random d =>
      if retained then none
      else do
        let (b, hues) ← b.randomize d hues
        let b ← b.setStatus d .on false
        return (b, hues)
  | .strobe (some level) => some (b.setStrobe level, hues)
  | .strobe none => none
  | .unrecognized => none

end Command

namespace Board

variable {n : Nat} {η : Type} [HueSource η]

/-- What a message does to a board: the command that was carried out, with the board and the hues
after it. A message that is no command, or whose command is refused, does nothing. -/
def receive (b : Board n) (hues : η) (root topic : String) (payload : ByteArray)
    (retained : Bool) : Option (Command × Board n × η) :=
  match Command.parse root n topic payload with
  | .error _ => none
  | .ok command => (command.apply b hues retained).map fun (b, hues) => (command, b, hues)

end Board

end Luminaire
