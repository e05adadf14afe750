import Luminaire.Proofs.Node.Cadence

/-!
# Sessions

A session is a paced node in its surroundings, from power-up on. An `Event` is anything that can
be done to it from outside: the five events of a node, a universe that comes in, a tick of the
pacer, and an `Operation` on the board without a message. The session also keeps what has left
the node: the calls on the transport, the rows of duties written to the outputs, and the requests
to the strobe line.

Each event that polls brings the transport it finds, so nothing is assumed about how two polls
are connected. An event that reaches past the end of time has no session after it, and neither
has a run with such an event.
-/

namespace Luminaire

/-- A transport that is always connected and takes every call. -/
structure Steady where
deriving DecidableEq

instance : Transport Steady where
  isConnected t := (true, t)
  publish t _ _ _ := (.ok (), t)
  subscribe t _ := (.ok (), t)

/-- A change of a board that is asked for without a message. A random color takes its hues from a
source of its own. -/
inductive Operation (θ : Type) where
  | setTarget (d : Destination) (color : Color) (replayed : Bool)
  | setBase (d : Destination) (color : Color) (replayed : Bool)
  | redim (d : Destination) (replayed : Bool)
  | setBrightness (d : Destination) (brightness : UInt8) (replayed : Bool)
  | setMode (d : Destination) (mode : FadeMode) (replayed : Bool)
  | setStatus (d : Destination) (status : Status) (replayed : Bool)
  | randomize (d : Destination) (hues : θ)
  | setStrobe (level : UInt8)

namespace Operation

variable {n : Nat} {θ : Type} [HueSource θ]

/-- The board after the operation, unless it is refused. -/
def result? (b : Board n) : Operation θ → Option (Board n)
  | setTarget d color replayed => b.setTarget d color replayed
  | setBase d color replayed => b.setBase d color replayed
  | redim d replayed => b.redim d replayed
  | setBrightness d brightness replayed => b.setBrightness d brightness replayed
  | setMode d mode replayed => b.setMode d mode replayed
  | setStatus d status replayed => b.setStatus d status replayed
  | randomize d hues => (b.randomize d hues).map Prod.fst
  | setStrobe level => some (b.setStrobe level)

/-- The board that is there afterwards: a refused operation changes nothing. -/
def perform (op : Operation θ) (b : Board n) : Board n := (op.result? b).getD b

end Operation

/-- What can be done to a node from outside. -/
inductive Event (θ τ : Type) where
  | connack (now : Instant)
  | receive (topic : String) (payload : ByteArray) (retained : Bool)
  | storeUniverse (slots : Array UInt8)
  | operate (op : Operation θ)
  | process
  | poll (now : Instant) (t : τ)
  | flush
  | tick (now : Instant) (t : τ)

/-- The event ends with a step of the outputs. -/
def Event.flushes {θ τ : Type} : Event θ τ → Bool
  | flush => true
  | tick _ _ => true
  | _ => false

/-- The event is no step of the node's own. -/
def Event.isInput {θ τ : Type} : Event θ τ → Bool
  | connack _ => true
  | receive _ _ _ => true
  | storeUniverse _ => true
  | operate _ => true
  | _ => false

/-- A paced node and what has left it. -/
structure Session (n : Nat) (η : Type) where
  pacer : Pacer n η
  calls : List Call
  /-- The rows of duties written to the outputs. -/
  rows : List (List UInt16)
  lines : List Strobe.Line

namespace Session

variable {n : Nat} {η θ τ : Type}

/-- The session that begins when a node is switched on. -/
def powerUp (n : Nat) (settings : Settings) (options : Options) (hues : η) : Session n η where
  pacer := Pacer.start (Node.powerUp n settings options hues)
  calls := []
  rows := []
  lines := []

def node (s : Session n η) : Node n η := s.pacer.node

/-- The event comes with a step of the lamps. -/
def processes (s : Session n η) : Event θ τ → Prop
  | .process => True
  | .tick now _ => ¬ now < s.pacer.process.next
  | _ => False

def withNode (s : Session n η) (node : Node n η) : Session n η :=
  { s with pacer := { s.pacer with node := node } }

/-- A step of the lamps. -/
def process (s : Session n η) : Session n η :=
  { s.withNode s.node.process.2 with lines := s.lines ++ s.node.process.1.toList }

/-- A step of the broker, whose calls are added to the record. -/
def poll [Transport τ] (s : Session n η) (now : Instant) (t : τ) : Session n η :=
  let round := s.node.poll now (⟨t, s.calls⟩ : Recorded τ)
  { s.withNode round.node with calls := round.transport.calls }

/-- A step of the outputs. -/
def flush (s : Session n η) : Session n η :=
  { s.withNode s.node.flush.1 with rows := s.rows ++ (s.node.flush.2.map Frame.flatten).toList }

/-- The session with other cadences. -/
def paced (s : Session n η) (process poll : Cadence) : Session n η :=
  { s with pacer := ⟨s.node, process, poll⟩ }

/-- A tick of the pacer, with all that leaves the node in it. -/
def tick? [Transport τ] (s : Session n η) (now : Instant) (t : τ) : Option (Session n η) :=
  (s.pacer.tick? now (⟨t, s.calls⟩ : Recorded τ)).map fun turn =>
    { pacer := turn.pacer
      calls := turn.transport.calls
      rows := s.rows ++ (turn.written.map Frame.flatten).toList
      lines := s.lines ++ turn.line.toList }

/-- The session after an event. -/
def step? [HueSource η] [HueSource θ] [Transport τ] (s : Session n η) :
    Event θ τ → Option (Session n η)
  | .connack now => (s.node.connack? now).map s.withNode
  | .receive topic payload retained => some (s.withNode (s.node.receive topic payload retained).2)
  | .storeUniverse slots =>
      match s.node.storeUniverse slots with
      | .ok node => some (s.withNode node)
      | .error _ => some s
  | .operate op => some (s.withNode { s.node with board := op.perform s.node.board })
  | .process => some s.process
  | .poll now t => some (s.poll now t)
  | .flush => some s.flush
  | .tick now t => s.tick? now t

/-- The session after some events, the first one first. -/
def run? [HueSource η] [HueSource θ] [Transport τ] (s : Session n η) :
    List (Event θ τ) → Option (Session n η)
  | [] => some s
  | e :: rest => (s.step? e).bind fun s => s.run? rest

/-- Each event of a run comes in a session in which `P` allows it. -/
def Along [HueSource η] [HueSource θ] [Transport τ] (P : Session n η → Event θ τ → Prop)
    (s : Session n η) : List (Event θ τ) → Prop
  | [] => True
  | e :: rest => P s e ∧ ∀ s', s.step? e = some s' → Along P s' rest

section Runs

variable [HueSource η] [HueSource θ] [Transport τ]

@[simp] theorem run?_nil (s : Session n η) : s.run? ([] : List (Event θ τ)) = some s := rfl

theorem run?_cons (s : Session n η) (e : Event θ τ) (rest : List (Event θ τ)) :
    s.run? (e :: rest) = (s.step? e).bind fun s => s.run? rest := rfl

theorem run?_append (s : Session n η) (first second : List (Event θ τ)) :
    s.run? (first ++ second) = (s.run? first).bind fun s => s.run? second := by
  induction first generalizing s with
  | nil => rfl
  | cons e rest ih =>
      rw [List.cons_append, run?_cons, run?_cons, Option.bind_assoc]
      exact Option.bind_congr fun s' _ => ih s'

theorem Along.cons {P : Session n η → Event θ τ → Prop} {s s' : Session n η} {e : Event θ τ}
    {rest : List (Event θ τ)} (h : P s e) (hstep : s.step? e = some s') (hrest : Along P s' rest) :
    Along P s (e :: rest) := by
  refine ⟨h, fun s₁ hs₁ => ?_⟩
  obtain rfl := Option.some.inj (hstep.symm.trans hs₁)
  exact hrest

theorem along_of_forall {P : Session n η → Event θ τ → Prop} (h : ∀ s e, P s e)
    (s : Session n η) (events : List (Event θ τ)) : Along P s events := by
  induction events generalizing s with
  | nil => trivial
  | cons e rest ih => exact ⟨h s e, fun s' _ => ih s'⟩

/-- What every allowed event preserves holds after every allowed run. -/
theorem run?_invariant {P : Session n η → Event θ τ → Prop} {I : Session n η → Prop}
    (hstep : ∀ s e s', P s e → I s → s.step? e = some s' → I s')
    {s s' : Session n η} {events : List (Event θ τ)} (halong : Along P s events) (hs : I s)
    (hrun : s.run? events = some s') : I s' := by
  induction events generalizing s with
  | nil =>
      obtain rfl : s = s' := Option.some.inj hrun
      exact hs
  | cons e rest ih =>
      obtain ⟨s₁, hfirst, hrest⟩ := Option.bind_eq_some_iff.1 hrun
      exact ih (halong.2 s₁ hfirst) (hstep s e s₁ halong.1 hs hfirst) hrest

end Runs

/-- The session after the step of the lamps that comes first in a tick, if one is due. -/
def lit (s : Session n η) (now : Instant) : Session n η :=
  if now < s.pacer.process.next then s else s.process

/-- After the lamps a tick is a step of the broker, if one is due, and then a step of the outputs;
besides, it sets the cadences. -/
theorem eq_paced_of_tick? [Transport τ] {s s' : Session n η} {now : Instant} {t : τ}
    (h : s.tick? now t = some s') :
    ∃ process poll : Cadence,
      s' = (if now < s.pacer.poll.next then s.lit now else (s.lit now).poll now t).flush.paced
        process poll := by
  obtain ⟨turn, hturn, rfl⟩ := Option.map_eq_some_iff.1 h
  simp only [Pacer.tick?, Option.bind_eq_bind, Option.bind_eq_some_iff] at hturn
  obtain ⟨⟨processed, process⟩, hprocess, ⟨polled, poll⟩, hpoll, hend⟩ := hturn
  obtain rfl := Option.some.inj hend
  have hlit : s.lit now = if processed then s.process else s := by
    rw [lit, Cadence.fired_of_fire? hprocess]
    split <;> simp [*]
  have hpolls : (if now < s.pacer.poll.next then s.lit now else (s.lit now).poll now t) =
      if polled then (s.lit now).poll now t else s.lit now := by
    rw [Cadence.fired_of_fire? hpoll]
    split <;> simp [*]
  rw [hpolls, hlit]
  have hquiet : ∀ pacer calls rows,
      (⟨pacer, calls, rows, s.lines ++ none.toList⟩ : Session n η) =
        ⟨pacer, calls, rows, s.lines⟩ := by
    intro pacer calls rows
    rw [Option.toList_none, List.append_nil]
  refine ⟨process, poll, ?_⟩
  cases processed with
  | true =>
      cases polled with
      | true => rfl
      | false => rfl
  | false =>
      cases polled with
      | true => exact hquiet _ _ _
      | false => exact hquiet _ _ _

/-- A tick is a step of the lamps if one is due, then a step of the broker if one is due, and then
a step of the outputs; besides, it sets the cadences. -/
theorem tick?_eq_some [Transport τ] {s s' : Session n η} {now : Instant} {t : τ}
    (h : s.tick? now t = some s') :
    ∃ lit told : Session n η,
      (lit = s.process ∧ ¬ now < s.pacer.process.next ∨ lit = s) ∧
      (told = lit.poll now t ∨ told = lit) ∧
      ∃ process poll : Cadence, s' = told.flush.paced process poll := by
  refine ⟨s.lit now, _, ?_, ?_, eq_paced_of_tick? h⟩
  · rw [lit]
    split
    · exact Or.inr rfl
    next hdue => exact Or.inl ⟨rfl, hdue⟩
  · split
    · exact Or.inr rfl
    · exact Or.inl rfl

end Session

end Luminaire
