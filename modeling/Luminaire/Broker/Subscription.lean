import Luminaire.Broker.Transport
import Luminaire.Message.Command
import Luminaire.Time

/-!
# Subscribing step by step

When a node subscribes to its commands, the broker repeats the retained messages at once. To get
them in small batches the node subscribes in groups, some seconds apart, counted from the moment
at which the connection was acknowledged.

A `Plan` is the list of groups that are still to come, each with its time. Scheduling makes a
new plan and forgets the old one. A poll takes the groups whose time has come out of the plan,
in order, and subscribes to what is in them; a group that comes up while there is no connection
is dropped, since the next connection makes a plan of its own.
-/

namespace Luminaire

namespace Subject

/-- The pattern under which a node receives commands about the subject. -/
def filter (root : String) : Subject → Except CapacityError Topic
  | kind k => Topic.commandFilter root k.word
  | strobe => Topic.strobe root

end Subject

namespace Subscription

/-- Subjects that are subscribed to together, some time after the connection. -/
structure Group where
  delay : Duration
  subjects : List Subject
deriving DecidableEq

/-- The groups in the order of their delays. -/
def groups : List Group :=
  [ ⟨Duration.ofSeconds 5, [.kind .color, .kind .baseColor]⟩,
    ⟨Duration.ofSeconds 10, [.kind .brightness, .kind .mode, .strobe]⟩,
    ⟨Duration.ofSeconds 15, [.kind .switch]⟩,
    ⟨Duration.ofSeconds 20, [.kind .random]⟩ ]

/-- A group and the time at which it comes up. -/
structure Appointment where
  time : Instant
  group : Group
deriving DecidableEq

/-- The groups that are still to come. -/
structure Plan where
  appointments : List Appointment
deriving DecidableEq

/-- The appointment of a group after a connection at `now`, unless it lies past the end of time. -/
def Group.appointment? (g : Group) (now : Instant) : Option Appointment :=
  (now.after? g.delay).map fun time => ⟨time, g⟩

/-- Subscribe to some subjects. Returns how many subscriptions were accepted; a pattern that is
too long is passed over. -/
def subscribe {τ : Type} [Transport τ] (root : String) : List Subject → τ → Nat × τ
  | [], t => (0, t)
  | s :: rest, t =>
      match s.filter root with
      | .error _ => subscribe root rest t
      | .ok filter =>
          match Transport.subscribe t filter with
          | (.ok _, t) =>
              let (accepted, t) := subscribe root rest t
              (accepted + 1, t)
          | (.error _, t) => subscribe root rest t

/-- Subscribe to a group, unless there is no connection when its turn comes. Returns how many
subscriptions were accepted. -/
def Group.subscribe {τ : Type} [Transport τ] (g : Group) (root : String) (t : τ) : Nat × τ :=
  match Transport.isConnected t with
  | (false, t) => (0, t)
  | (true, t) => Subscription.subscribe root g.subjects t

/-- Meet some appointments at `now`. Returns those that are still to come, how many subscriptions
were accepted, and the transport. -/
def meet {τ : Type} [Transport τ] (now : Instant) (root : String) :
    List Appointment → τ → List Appointment × Nat × τ
  | [], t => ([], 0, t)
  | a :: rest, t =>
      if a.time ≤ now then
        let (accepted, t) := a.group.subscribe root t
        let (later, acceptedLater, t) := meet now root rest t
        (later, accepted + acceptedLater, t)
      else
        let (later, accepted, t) := meet now root rest t
        (a :: later, accepted, t)

namespace Plan

/-- Nothing to come. -/
def empty : Plan := ⟨[]⟩

/-- Some group is still to come. -/
def isPending (p : Plan) : Bool := !p.appointments.isEmpty

/-- The plan after a connection at `now`, unless some group would lie past the end of time. -/
def schedule? (now : Instant) : Option Plan :=
  (groups.mapM (Group.appointment? · now)).map Plan.mk

/-- What a poll leaves behind. -/
structure Round (τ : Type) where
  plan : Plan
  transport : τ
  /-- The number of subscriptions that were accepted. -/
  accepted : Nat

/-- Subscribe to every group whose time has come. -/
def poll {τ : Type} [Transport τ] (p : Plan) (now : Instant) (root : String) (t : τ) : Round τ :=
  let (later, accepted, t) := meet now root p.appointments t
  ⟨⟨later⟩, t, accepted⟩

end Plan

end Subscription

end Luminaire
