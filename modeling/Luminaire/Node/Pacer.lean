import Luminaire.Node.Basic

/-!
# Pacing a node

The pacer says when a node takes its steps. Each kind of step has a `Cadence`: the time at which
the next step is due, and the time between two steps. A step that is a little late does not
delay those after it, so that on average they keep their rate. If the pacer has fallen behind by
more than two periods, as the clock of milliseconds shows it, the missed steps are skipped and
the cadence starts anew from the present.

Times near the end of the range have no successor, so firing a cadence and ticking the pacer are
partial: they have no result exactly if a step that they take has no time for the one after it.
-/

namespace Luminaire

/-- Steps at regular times. -/
structure Cadence where
  /-- The time at which the next step is due. -/
  next : Instant
  /-- The time between two steps. -/
  period : Duration
deriving DecidableEq

namespace Cadence

/-- Steps that begin with the start of time. -/
def start (period : Duration) : Cadence := ⟨Instant.zero, period⟩

/-- Two periods in whole milliseconds: the longest delay that is caught up. -/
def tolerance (c : Cadence) : UInt64 := (Duration.ofMillis (c.period.millis * 2)).millis

/-- The step that is due has been missed for so long that the ones after it are skipped. -/
def isBehind (c : Cadence) (now : Instant) : Bool :=
  c.next.millis + c.tolerance < now.millis

/-- The time from which the next period is counted when a step is taken at `now`. -/
def anchor (c : Cadence) (now : Instant) : Instant := if c.isBehind now then now else c.next

/-- Whether a step is due at `now`, and the cadence after it. There is none if the step after it
would lie past the end of time. -/
def fire? (c : Cadence) (now : Instant) : Option (Bool × Cadence) :=
  if now < c.next then some (false, c)
  else ((c.anchor now).after? c.period).map fun next => (true, { c with next := next })

theorem fire?_of_early {c : Cadence} {now : Instant} (h : now < c.next) :
    c.fire? now = some (false, c) := by
  rw [fire?, if_pos h]

theorem fire?_of_due {c : Cadence} {now : Instant} (h : ¬ now < c.next) :
    c.fire? now =
      ((c.anchor now).after? c.period).map fun next => (true, { c with next := next }) := by
  rw [fire?, if_neg h]

end Cadence

/-- A node with the cadences of its steps. -/
structure Pacer (n : Nat) (η : Type) where
  node : Node n η
  process : Cadence
  poll : Cadence

namespace Pacer

variable {n : Nat} {η τ : Type}

/-- A node whose first steps are due at the start of time. -/
def start (node : Node n η) : Pacer n η where
  node := node
  process := Cadence.start node.options.processEvery
  poll := Cadence.start node.options.pollEvery

/-- What a tick leaves behind. -/
structure Turn (n : Nat) (η τ : Type) where
  pacer : Pacer n η
  transport : τ
  /-- The lamps took a step. -/
  processed : Bool
  /-- The broker was polled. -/
  polled : Bool
  /-- What was asked of the strobe line. -/
  line : Option Strobe.Line
  /-- The frame that was written to the outputs. -/
  written : Option (Frame n)

/-- The time at which the next step is due. -/
def nextDeadline (p : Pacer n η) : Instant := p.process.next.earlier p.poll.next

/-- How long there is nothing to do. -/
def idleTime (p : Pacer n η) (now : Instant) : Duration := p.nextDeadline.untilFrom now

/-- Take the steps that are due at `now`, the lamps before the broker, and bring the outputs up to
date. There is no result if a next step would lie past the end of time. -/
def tick? [Transport τ] (p : Pacer n η) (now : Instant) (t : τ) : Option (Turn n η τ) := do
  let (processed, process) ← p.process.fire? now
  let (polled, poll) ← p.poll.fire? now
  let (line, node) := if processed then p.node.process else (none, p.node)
  let (node, t) :=
    if polled then
      let round := node.poll now t
      (round.node, round.transport)
    else (node, t)
  let (node, written) := node.flush
  return ⟨⟨node, process, poll⟩, t, processed, polled, line, written⟩

end Pacer

end Luminaire
