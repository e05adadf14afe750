/-!
# Strobe

The strobe flashes all lamps at once through the line that enables their outputs. It is ticked
`ticksPerSecond` times a second and toggles the line whenever `interval?` ticks have gone by, so
that a level flashes at about that many hertz. Level `0` does not flash, and neither does a
level above `maxLevel`; for these the line is held on and the count stays where it is.
-/

namespace Luminaire

/-- The strobe, which counts the ticks since it last toggled. -/
structure Strobe where
  counter : UInt8
deriving DecidableEq

namespace Strobe

/-- What is asked of the line that enables the outputs. -/
inductive Line where
  /-- Hold the outputs enabled. -/
  | on
  /-- Flip the present state. -/
  | toggle
deriving DecidableEq

/-- The number of ticks in a second. -/
def ticksPerSecond : UInt8 := 50

/-- The highest level that flashes: a flash takes two ticks. -/
def maxLevel : UInt8 := ticksPerSecond / 2

/-- Before the first tick. -/
def start : Strobe := ⟨0⟩

/-- The ticks between two toggles, truncated, unless the level does not flash. -/
def interval? (level : UInt8) : Option UInt8 :=
  if level = 0 ∨ maxLevel < level then none else some (ticksPerSecond / (level * 2))

/-- One tick: what is asked of the line, if anything, and the strobe after it. -/
def tick (s : Strobe) (level : UInt8) : Option Line × Strobe :=
  match interval? level with
  | none => (some Line.on, s)
  | some interval =>
      if interval ≤ s.counter then (some Line.toggle, ⟨1⟩)
      else (none, ⟨(s.counter + 1) % ticksPerSecond⟩)

theorem tick_of_steady (s : Strobe) {level : UInt8} (h : interval? level = none) :
    s.tick level = (some Line.on, s) := by
  rw [tick, h]

theorem tick_of_flashing (s : Strobe) {level interval : UInt8}
    (h : interval? level = some interval) :
    s.tick level =
      if interval ≤ s.counter then (some Line.toggle, ⟨1⟩)
      else (none, ⟨(s.counter + 1) % ticksPerSecond⟩) := by
  rw [tick, h]

end Strobe

end Luminaire
