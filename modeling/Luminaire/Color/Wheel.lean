import Luminaire.Color.Basic

/-!
# The color wheel

Hue, saturation and value, each in the unit interval, are another set of coordinates for colors.
The wheel is cut into six sectors; inside a sector one component is full, one is lowest and the
third ramps up or down. Scaling back to bytes truncates, so going around the wheel may lose one
unit of a component. The hue `1` closes the circle: it falls into the sector after the last one,
which is the first again.
-/

namespace Luminaire

/-- Hue, saturation and value, each in the unit interval. -/
structure Hsv where
  hue : Float
  saturation : Float
  value : Float

namespace Hsv

/-- Black, with hue and saturation zero. -/
def black : Hsv := ⟨0.0, 0.0, 0.0⟩

/-- A fraction of full intensity as a byte, truncated, and cut off at both ends of the range. -/
def component (fraction : Float) : UInt8 := (fraction * 255.0).toUInt8

/-- The color of a point on the wheel. -/
def toColor (c : Hsv) : Color :=
  let sector := (c.hue * 6.0).floor
  let along := c.hue * 6.0 - sector
  let low := c.value * (1.0 - c.saturation)
  let falling := c.value * (1.0 - along * c.saturation)
  let rising := c.value * (1.0 - (1.0 - along) * c.saturation)
  let mix (r g b : Float) : Color := ⟨component r, component g, component b⟩
  match sector.toInt64.toInt % 6 with
  | 0 => mix c.value rising low
  | 1 => mix falling c.value low
  | 2 => mix low c.value rising
  | 3 => mix low falling c.value
  | 4 => mix rising low c.value
  | _ => mix c.value low falling

/-- A byte as a fraction of full intensity. -/
def fraction (component : UInt8) : Float := component.toFloat / 255.0

/-- The point on the wheel at which a color lies. When components share the largest value, red
comes before green and green before blue in choosing the sector; a gray has hue zero. -/
def ofColor (c : Color) : Hsv :=
  let r := fraction c.red
  let g := fraction c.green
  let b := fraction c.blue
  let larger (x y : Float) := if x < y then y else x
  let smaller (x y : Float) := if y < x then y else x
  let high := larger r (larger g b)
  let low := smaller r (smaller g b)
  let spread := high - low
  let saturation := if high == 0.0 then 0.0 else spread / high
  let hue :=
    if high == low then 0.0
    else if high == r then ((g - b) / spread + (if g < b then 6.0 else 0.0)) / 6.0
    else if high == g then ((b - r) / spread + 2.0) / 6.0
    else ((r - g) / spread + 4.0) / 6.0
  ⟨hue, saturation, high⟩

end Hsv

end Luminaire
