import Luminaire.Board.Basic
import Luminaire.Color.Random

/-!
# Random colors on a board

One channel gets one hue and keeps its brightness as the value of the color, so that its base
color is already dimmed once; a broadcast draws one hue per channel, in the order of the
channels, and gives every channel the full value. In both cases the drawn color becomes the base
color and the target follows from it.
-/

namespace Luminaire

namespace Channel

/-- The channel with a new base color and the target that follows from it. -/
def tint (c : Channel) (color : Color) : Channel :=
  { c with base := color, pendingPublish := true }.redim

end Channel

namespace Board

variable {n : Nat} {η : Type} [HueSource η]

/-- Random base colors for the destination, and the hues that are left. -/
def randomize (b : Board n) (d : Destination) (hues : η) : Option (Board n × η) :=
  match d with
  | .channel i =>
      if h : i < n then
        let c := b.channels[i]
        let (hue, rest) := HueSource.next hues
        let color := Color.ofHue hue (Hsv.fraction c.brightness)
        some ({ b with channels := b.channels.set i (c.tint color) }, rest)
      else none
  | .all =>
      let (drawn, rest) := HueSource.draw n hues
      let tintFull (c : Channel) (hue : Float) := c.tint (Color.ofHue hue 1.0)
      some ({ b with channels := Vector.zipWith tintFull b.channels drawn }, rest)

theorem randomize_channel_of_le (b : Board n) {i : Nat} (h : n ≤ i) (hues : η) :
    b.randomize (.channel i) hues = none := by
  rw [randomize, dif_neg (Nat.not_lt.2 h)]

end Board

end Luminaire
