import Luminaire.Usb.SetupPacket

/-!
# Routing vendor requests

Several handlers share the vendor requests of one device. A router asks them in the order in
which they registered, and the first that claims the number of a request gets it; what nobody
claims goes to the fallback, if there is one. The stages of data that follow carry no number, so
the router remembers the route of the last vendor request. It remembers a route and not a
handler: the way to the fallback leads to whichever fallback is set when the data comes.

Handlers act on a state `σ` that they share, so a handler is a record of actions and not an
object; one that does not care for data leaves the last three as they are.
-/

namespace Luminaire

namespace Usb

/-- Something that serves vendor requests. -/
structure Handler (σ : Type) where
  /-- The handler serves requests of this number. -/
  claims : (request : UInt8) → StateM σ Bool
  /-- Begin a request. Returns the number of bytes to send back. -/
  setup : SetupPacket → StateM σ UInt16
  /-- Take data from the host. Returns whether the data is complete. -/
  write : (data : List UInt8) → StateM σ Bool := fun _ => pure true
  /-- Put data for the host into a buffer. Returns the number of bytes and the buffer. -/
  read : (buffer : List UInt8) → StateM σ (Nat × List UInt8) := fun buffer => pure (0, buffer)
  /-- The host has got its data. -/
  readFinished : StateM σ Unit := pure ()

/-- The way of a request. -/
inductive Route where
  /-- To the handler that registered at this place, counted from zero. -/
  | handler (place : Nat)
  | fallback
deriving DecidableEq

/-- A router for at most `capacity` handlers. -/
structure Router (capacity : Nat) (σ : Type) where
  /-- The handlers in the order in which they registered. -/
  handlers : List (Handler σ)
  length_le : handlers.length ≤ capacity
  /-- Serves what nobody claims. -/
  fallback : Option (Handler σ)
  /-- The route of the last vendor request. -/
  active : Option Route

namespace Router

variable {capacity : Nat} {σ : Type}

/-- A router without handlers. -/
def empty : Router capacity σ := ⟨[], Nat.zero_le _, none, none⟩

/-- The router with one more handler, if there is a place for it. -/
def register? (r : Router capacity σ) (h : Handler σ) : Option (Router capacity σ) :=
  if hlt : r.handlers.length < capacity then
    some { r with
      handlers := r.handlers ++ [h]
      length_le := by rw [List.length_append]; exact hlt }
  else none

/-- The router with another fallback. -/
def setFallback (r : Router capacity σ) (h : Handler σ) : Router capacity σ :=
  { r with fallback := some h }

/-- The handler at the end of a route. -/
def resolve (r : Router capacity σ) : Route → Option (Handler σ)
  | .handler place => r.handlers[place]?
  | .fallback => r.fallback

/-- The handler that gets the data. -/
def activeHandler? (r : Router capacity σ) : Option (Handler σ) := r.active.bind r.resolve

/-- Ask handlers in order until one claims the request. Returns its place, counted from `place`. -/
def firstClaiming (request : UInt8) (place : Nat) : List (Handler σ) → StateM σ (Option Nat)
  | [] => pure none
  | h :: rest => do
      if ← h.claims request then pure (some place) else firstClaiming request (place + 1) rest

/-- The route of a request. The fallback is not asked. -/
def route (r : Router capacity σ) (request : UInt8) : StateM σ (Option Route) := do
  match ← firstClaiming request 0 r.handlers with
  | some place => return some (.handler place)
  | none => return r.fallback.map fun _ => .fallback

/-- Begin a transfer. Returns the number of bytes to send back, and the router after it. A packet
of another type than the vendors' is none of the router's business, and it stays as it was. -/
def setup (r : Router capacity σ) (bytes : Vector UInt8 8) :
    StateM σ (UInt16 × Router capacity σ) := do
  let packet := SetupPacket.ofBytes bytes
  if packet.isVendor then
    let r := { r with active := ← r.route packet.request }
    match r.activeHandler? with
    | some h => return (← h.setup packet, r)
    | none => return (0, r)
  else return (0, r)

/-- Data from the host. Without a handler it is complete at once. -/
def write (r : Router capacity σ) (data : List UInt8) : StateM σ Bool :=
  match r.activeHandler? with
  | some h => h.write data
  | none => pure true

/-- Data for the host. Without a handler there is none. -/
def read (r : Router capacity σ) (buffer : List UInt8) : StateM σ (Nat × List UInt8) :=
  match r.activeHandler? with
  | some h => h.read buffer
  | none => pure (0, buffer)

/-- The host has got its data. -/
def readFinished (r : Router capacity σ) : StateM σ Unit :=
  match r.activeHandler? with
  | some h => h.readFinished
  | none => pure ()

end Router

end Usb

end Luminaire
