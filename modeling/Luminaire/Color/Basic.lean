/-!
# Colors and their components

A color is three bytes. Everything a lamp does to a color it does to each component by itself,
so the arithmetic is defined once on bytes (`Component.dim`, `Component.approach`,
`Component.distance`) and lifted to colors. The byte operations never leave the byte range: a
dimmed component is at most the component, and an approaching one never passes its target. The
lemmas state each of them in `Nat`, where it can be reasoned about without wrap-around.
-/

namespace Luminaire

/-- An additive color with one byte per component. -/
structure Color where
  red : UInt8
  green : UInt8
  blue : UInt8
deriving DecidableEq

namespace Component

/-- The component scaled by a brightness, where `255` is full brightness and `0` is dark. The
product is divided by `255` and truncated. -/
def dim (value brightness : UInt8) : UInt8 :=
  UInt8.ofNat (value.toNat * brightness.toNat / 255)

/-- One unit from `current` toward `target`, never past it. -/
def approach (current target : UInt8) : UInt8 :=
  if target < current then current - 1
  else if current < target then current + 1
  else current

/-- How far apart two component values are. -/
def distance (a b : UInt8) : UInt8 :=
  if a < b then b - a else a - b

theorem toNat_dim (value brightness : UInt8) :
    (dim value brightness).toNat = value.toNat * brightness.toNat / 255 := by
  have hv := value.toNat_lt
  have hb := brightness.toNat_lt
  have hmul : value.toNat * brightness.toNat ≤ 255 * 255 :=
    Nat.mul_le_mul (by omega) (by omega)
  simp only [dim, UInt8.toNat_ofNat']
  omega

@[simp] theorem dim_full (value : UInt8) : dim value 255 = value := by
  apply UInt8.toNat_inj.1
  rw [toNat_dim]
  show value.toNat * 255 / 255 = value.toNat
  omega

@[simp] theorem dim_dark (value : UInt8) : dim value 0 = 0 := by
  apply UInt8.toNat_inj.1
  rw [toNat_dim]
  show value.toNat * 0 / 255 = 0
  omega

theorem toNat_approach_of_lt {current target : UInt8} (h : current < target) :
    (approach current target).toNat = current.toNat + 1 := by
  have hlt := UInt8.lt_iff_toNat_lt.1 h
  have ht := target.toNat_lt
  have hn : ¬ target < current := fun h' => by
    have := UInt8.lt_iff_toNat_lt.1 h'
    omega
  rw [approach, if_neg hn, if_pos h, UInt8.toNat_add]
  show (current.toNat + 1) % 2 ^ 8 = current.toNat + 1
  omega

theorem toNat_approach_of_gt {current target : UInt8} (h : target < current) :
    (approach current target).toNat = current.toNat - 1 := by
  have hlt := UInt8.lt_iff_toNat_lt.1 h
  rw [approach, if_pos h, UInt8.toNat_sub_of_le]
  · rfl
  · exact UInt8.le_iff_toNat_le.2 (show 1 ≤ current.toNat by omega)

@[simp] theorem approach_self (value : UInt8) : approach value value = value := by
  simp [approach]

theorem toNat_distance (a b : UInt8) :
    (distance a b).toNat = (a.toNat - b.toNat) + (b.toNat - a.toNat) := by
  by_cases h : a < b
  · have hlt := UInt8.lt_iff_toNat_lt.1 h
    rw [distance, if_pos h, UInt8.toNat_sub_of_le _ _ (UInt8.le_iff_toNat_le.2 (by omega))]
    omega
  · have hle : b.toNat ≤ a.toNat := by
      have : ¬ a.toNat < b.toNat := fun h' => h (UInt8.lt_iff_toNat_lt.2 h')
      omega
    rw [distance, if_neg h, UInt8.toNat_sub_of_le _ _ (UInt8.le_iff_toNat_le.2 hle)]
    omega

end Component

namespace Color

/-- All components off. -/
def black : Color := ⟨0, 0, 0⟩

/-- Some component is on. -/
def isLit (c : Color) : Bool := c != black

/-- The color with every component scaled by the brightness. -/
def dim (c : Color) (brightness : UInt8) : Color where
  red := Component.dim c.red brightness
  green := Component.dim c.green brightness
  blue := Component.dim c.blue brightness

/-- One unit per component from `c` toward `target`. -/
def approach (c target : Color) : Color where
  red := Component.approach c.red target.red
  green := Component.approach c.green target.green
  blue := Component.approach c.blue target.blue

/-- The larger of two bytes. -/
private def larger (a b : UInt8) : UInt8 := if b < a then a else b

private theorem toNat_larger (a b : UInt8) : (larger a b).toNat = max a.toNat b.toNat := by
  by_cases h : b < a
  · have := UInt8.lt_iff_toNat_lt.1 h
    rw [larger, if_pos h]
    omega
  · have : ¬ b.toNat < a.toNat := fun h' => h (UInt8.lt_iff_toNat_lt.2 h')
    rw [larger, if_neg h]
    omega

/-- The largest component distance between two colors. Components approach in parallel, so this is
the number of steps one color needs to reach the other. -/
def distance (a b : Color) : UInt8 :=
  larger (larger (Component.distance a.red b.red) (Component.distance a.green b.green))
    (Component.distance a.blue b.blue)

theorem toNat_distance (a b : Color) :
    (distance a b).toNat =
      max (max (Component.distance a.red b.red).toNat (Component.distance a.green b.green).toNat)
        (Component.distance a.blue b.blue).toNat := by
  simp only [distance, toNat_larger]

@[simp] theorem dim_full (c : Color) : c.dim 255 = c := by
  simp [dim]

@[simp] theorem approach_self (c : Color) : c.approach c = c := by
  simp [approach]

end Color

end Luminaire
