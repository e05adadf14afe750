import Luminaire.Message.Topic

/-!
# The connection to the broker

A node reaches the broker through a `Transport`, of which it assumes nothing: a call may be
refused, and the connection may come or go at any moment. So every contact leads on to the
transport as it is then: each call returns whether it was accepted and the transport after it,
and so does a mere look at the connection.

`Recorded` adds to a transport the list of all calls made on it, together with whether it was
connected when the call was made and what came of it. It behaves as the transport inside it
does, so what a record shows of a node is what the transport would have seen.
-/

namespace Luminaire

/-- Why a transport refuses a call. -/
inductive TransportError where
  /-- There is no connection to the broker. -/
  | disconnected
  /-- There is no room for another packet. -/
  | bufferFull
deriving DecidableEq

namespace TransportError

/-- The words for the error. -/
def message : TransportError → String
  | disconnected => "transport disconnected"
  | bufferFull => "transport buffer full"

end TransportError

/-- A client of the broker. -/
class Transport (τ : Type) where
  /-- Look whether the connection to the broker stands. -/
  isConnected : τ → Bool × τ
  /-- Hand over a message, with the mark whether the broker shall keep it. -/
  publish : τ → (topic : Topic) → (payload : String) → (retain : Bool) →
    Except TransportError Unit × τ
  /-- Ask for the messages whose topics match a pattern. -/
  subscribe : τ → (filter : Topic) → Except TransportError Unit × τ

/-- A request to the broker. -/
inductive Request where
  | publish (topic : Topic) (payload : String) (retain : Bool)
  | subscribe (filter : Topic)
deriving DecidableEq

/-- A request that was made, and how it went. -/
structure Call where
  request : Request
  /-- The connection stood when the request was made. -/
  connected : Bool
  outcome : Except TransportError Unit

/-- A transport with the calls that were made on it, the oldest first. -/
structure Recorded (τ : Type) where
  transport : τ
  calls : List Call

namespace Recorded

variable {τ : Type} [Transport τ]

instance : Transport (Recorded τ) where
  isConnected r :=
    let (connected, next) := Transport.isConnected r.transport
    (connected, ⟨next, r.calls⟩)
  publish r topic payload retain :=
    let connected := (Transport.isConnected r.transport).1
    let (outcome, next) := Transport.publish r.transport topic payload retain
    (outcome, ⟨next, r.calls ++ [⟨.publish topic payload retain, connected, outcome⟩]⟩)
  subscribe r filter :=
    let connected := (Transport.isConnected r.transport).1
    let (outcome, next) := Transport.subscribe r.transport filter
    (outcome, ⟨next, r.calls ++ [⟨.subscribe filter, connected, outcome⟩]⟩)

end Recorded

end Luminaire
