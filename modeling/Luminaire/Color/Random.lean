import Luminaire.Color.Wheel

/-!
# Random colors

Random colors are fully saturated; only their hue is drawn. Where hues come from is left open: a
`HueSource` is any state that yields a hue in `[0, 1)` and the state after it, and `draw` takes
several hues in a row. The source provided here, `SplitMix`, walks through all 64-bit words in
steps of one odd constant, mixes each word, and reads the upper half of the mixed word as a
fraction of `2 ^ 32`.
-/

namespace Luminaire

/-- A state that yields one hue after the other. -/
class HueSource (η : Type) where
  /-- The next hue and the state after it. -/
  next : η → Float × η

namespace HueSource

variable {η : Type} [HueSource η]

/-- The next `n` hues, in the order in which they are drawn, and the state after them. -/
def draw : (n : Nat) → η → Vector Float n × η
  | 0, hues => (#v[], hues)
  | n + 1, hues =>
      let (drawn, rest) := draw n hues
      let (hue, rest) := next rest
      (drawn.push hue, rest)

@[simp] theorem draw_zero (hues : η) : draw 0 hues = (#v[], hues) := rfl

theorem draw_succ (n : Nat) (hues : η) :
    draw (n + 1) hues =
      ((draw n hues).1.push (next (draw n hues).2).1, (next (draw n hues).2).2) := rfl

end HueSource

/-- The fully saturated color of a hue. -/
def Color.ofHue (hue value : Float) : Color := Hsv.toColor ⟨hue, 1.0, value⟩

/-- A deterministic source of hues, which is its position on the walk. -/
structure SplitMix where
  position : UInt64
deriving DecidableEq

namespace SplitMix

/-- The step of the walk. It is odd, so the walk meets every word before it returns. -/
def stride : UInt64 := 0x9e3779b97f4a7c15

/-- The mixed word at a position of the walk. -/
def mix (position : UInt64) : UInt64 :=
  let a := (position ^^^ (position >>> 30)) * 0xbf58476d1ce4e5b9
  let b := (a ^^^ (a >>> 27)) * 0x94d049bb133111eb
  b ^^^ (b >>> 31)

/-- The upper half of a word. -/
def upperHalf (word : UInt64) : UInt32 := (word >>> 32).toUInt32

/-- The source one step further. -/
def step (s : SplitMix) : SplitMix := ⟨s.position + stride⟩

/-- The number that the present position stands for. -/
def output (s : SplitMix) : UInt32 := upperHalf (mix s.position)

/-- A number as a fraction of `2 ^ 32`, so that it is below one. -/
def hueOfOutput (u : UInt32) : Float := u.toFloat / 4294967296.0

instance : HueSource SplitMix where
  next s := (hueOfOutput s.step.output, s.step)

end SplitMix

end Luminaire
