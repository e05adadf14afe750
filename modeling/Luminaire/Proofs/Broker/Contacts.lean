import Luminaire.Broker.Publisher
import Luminaire.Broker.Subscription

/-!
# What is done with a transport

A look at the connection stands for a while: it is followed by calls that are made without looking
again. `Watched` adds to a transport the list of all contacts with it, looks and calls, so that a
list of contacts shows which look a call goes back to. Whatever subscribes or publishes does so in
`Stage`s, each of which is one look and the calls that follow from it.

The calls of a stage are made one after the other, each on the transport that the one before left
behind (`Made`). So all that a look can promise is the connection at the first of them. That it
stands at the others is up to the transport: it must not lose its connection by a call.
-/

namespace Luminaire

namespace Call

/-- The call was accepted. -/
def accepted (c : Call) : Bool := c.outcome.isOk

end Call

/-- A contact with a transport. -/
inductive Contact where
  /-- A look at the connection, and what it showed. -/
  | look (connected : Bool)
  | call (c : Call)

namespace Contact

/-- The request that was made. -/
def request? : Contact → Option Request
  | look _ => none
  | call c => some c.request

end Contact

/-- A transport with the contacts that were made with it, the oldest first. -/
structure Watched (τ : Type) where
  transport : τ
  contacts : List Contact

namespace Watched

variable {τ : Type} [Transport τ]

instance : Transport (Watched τ) where
  isConnected w :=
    let (connected, next) := Transport.isConnected w.transport
    (connected, ⟨next, w.contacts ++ [.look connected]⟩)
  publish w topic payload retain :=
    let connected := (Transport.isConnected w.transport).1
    let (outcome, next) := Transport.publish w.transport topic payload retain
    (outcome, ⟨next, w.contacts ++ [.call ⟨.publish topic payload retain, connected, outcome⟩]⟩)
  subscribe w filter :=
    let connected := (Transport.isConnected w.transport).1
    let (outcome, next) := Transport.subscribe w.transport filter
    (outcome, ⟨next, w.contacts ++ [.call ⟨.subscribe filter, connected, outcome⟩]⟩)

/-- The calls were made one after the other and without a look, and lead from `w` to `w'`. -/
inductive Made : List Call → Watched τ → Watched τ → Prop where
  | nil (w : Watched τ) : Made [] w w
  | publish {w w' : Watched τ} {calls : List Call} (topic : Topic) (payload : String)
      (retain : Bool) (h : Made calls (Transport.publish w topic payload retain).2 w') :
      Made (⟨.publish topic payload retain, (Transport.isConnected w.transport).1,
        (Transport.publish w topic payload retain).1⟩ :: calls) w w'
  | subscribe {w w' : Watched τ} {calls : List Call} (filter : Topic)
      (h : Made calls (Transport.subscribe w filter).2 w') :
      Made (⟨.subscribe filter, (Transport.isConnected w.transport).1,
        (Transport.subscribe w filter).1⟩ :: calls) w w'

theorem Made.append {first second : List Call} {w w' w'' : Watched τ} (h : Made first w w')
    (h' : Made second w' w'') : Made (first ++ second) w w'' := by
  induction h with
  | nil w => exact h'
  | publish topic payload retain _ ih => exact .publish topic payload retain (ih h')
  | subscribe filter _ ih => exact .subscribe filter (ih h')

theorem Made.contacts_eq {calls : List Call} {w w' : Watched τ} (h : Made calls w w') :
    w'.contacts = w.contacts ++ calls.map .call := by
  induction h with
  | nil w => exact (List.append_nil w.contacts).symm
  | publish topic payload retain _ ih => exact ih.trans (List.append_assoc _ _ _)
  | subscribe filter _ ih => exact ih.trans (List.append_assoc _ _ _)

/-- The first call meets the connection as it was before all calls. -/
theorem Made.connected_first {calls : List Call} {w w' : Watched τ} (h : Made calls w w') :
    ∀ c ∈ calls.head?, c.connected = (Transport.isConnected w.transport).1 := by
  cases h with
  | nil => simp
  | publish => simp
  | subscribe => simp

end Watched

namespace Transport

/-- A look does not bring down a connection that stands. -/
def LooksKeep (τ : Type) [Transport τ] : Prop :=
  ∀ t : τ, (isConnected t).1 = true → (isConnected (isConnected t).2).1 = true

/-- No call brings down a connection that stands. -/
def CallsKeep (τ : Type) [Transport τ] : Prop :=
  ∀ t : τ, (isConnected t).1 = true →
    (∀ topic payload retain, (isConnected (publish t topic payload retain).2).1 = true) ∧
      ∀ filter, (isConnected (subscribe t filter).2).1 = true

end Transport

namespace Watched

variable {τ : Type} [Transport τ]

theorem Made.connected {calls : List Call} {w w' : Watched τ} (h : Made calls w w')
    (hkeep : Transport.CallsKeep τ) (hw : (Transport.isConnected w.transport).1 = true) :
    ∀ c ∈ calls, c.connected = true := by
  induction h with
  | nil w => simp
  | @publish w w' calls topic payload retain _ ih =>
      exact List.forall_mem_cons.2 ⟨hw, ih ((hkeep w.transport hw).1 topic payload retain)⟩
  | @subscribe w w' calls filter _ ih =>
      exact List.forall_mem_cons.2 ⟨hw, ih ((hkeep w.transport hw).2 filter)⟩

end Watched

/-- A transport that takes one call, and loses its connection by it. -/
structure Fragile where
  connected : Bool
deriving DecidableEq

instance : Transport Fragile where
  isConnected t := (t.connected, t)
  publish t _ _ _ := if t.connected then (.ok (), ⟨false⟩) else (.error .disconnected, t)
  subscribe t _ := if t.connected then (.ok (), ⟨false⟩) else (.error .disconnected, t)

/-- A look at the connection and the calls that are made on the strength of it. -/
structure Stage where
  /-- What the look showed. -/
  connected : Bool
  calls : List Call

namespace Stage

def contacts (s : Stage) : List Contact := .look s.connected :: s.calls.map .call

/-- All of the requests are made, or none of them if the look showed no connection. -/
def Makes (wanted : List Request) (s : Stage) : Prop :=
  s.calls.map Call.request = if s.connected then wanted else []

theorem requests_contacts (s : Stage) :
    s.contacts.filterMap Contact.request? = s.calls.map Call.request := by
  rw [contacts, List.filterMap_cons_none rfl, List.filterMap_map]
  exact congrFun List.filterMap_eq_map s.calls

variable {τ : Type} [Transport τ]

/-- The stage leads from `w` to `w'`. Without a connection no call is made. -/
structure Leads (s : Stage) (w w' : Watched τ) : Prop where
  look : (Transport.isConnected w).1 = s.connected
  made : Watched.Made s.calls (Transport.isConnected w).2 w'
  idle : s.connected = false → s.calls = []

theorem Leads.contacts_eq {s : Stage} {w w' : Watched τ} (h : s.Leads w w') :
    w'.contacts = w.contacts ++ s.contacts := by
  rw [h.made.contacts_eq, contacts, ← h.look]
  exact List.append_assoc _ _ _

/-- What can be said of the calls of a stage if the transport is of type `τ`. -/
structure Guarded (τ : Type) [Transport τ] (s : Stage) : Prop where
  idle : s.connected = false → s.calls = []
  first : Transport.LooksKeep τ → ∀ c ∈ s.calls.head?, c.connected = true
  all : Transport.LooksKeep τ → Transport.CallsKeep τ → ∀ c ∈ s.calls, c.connected = true

theorem Leads.guarded {s : Stage} {w w' : Watched τ} (h : s.Leads w w') : s.Guarded τ := by
  cases hconnected : s.connected with
  | false =>
      have hidle := h.idle hconnected
      refine ⟨h.idle, fun _ => ?_, fun _ _ => ?_⟩
      · simp [hidle]
      · simp [hidle]
  | true =>
      have hbefore : (Transport.isConnected w.transport).1 = true := h.look.trans hconnected
      refine ⟨h.idle, fun hlook c hc => ?_, fun hlook hcall => ?_⟩
      · exact (h.made.connected_first c hc).trans (hlook w.transport hbefore)
      · exact h.made.connected hcall (hlook w.transport hbefore)

/-- The stages lead from `w` to `w'`, one after the other. -/
inductive Lead : List Stage → Watched τ → Watched τ → Prop where
  | nil (w : Watched τ) : Lead [] w w
  | cons {s : Stage} {rest : List Stage} {w w' w'' : Watched τ} (first : s.Leads w w')
      (h : Lead rest w' w'') : Lead (s :: rest) w w''

theorem Lead.append {first second : List Stage} {w w' w'' : Watched τ} (h : Lead first w w')
    (h' : Lead second w' w'') : Lead (first ++ second) w w'' := by
  induction h with
  | nil w => exact h'
  | cons first _ ih => exact .cons first (ih h')

theorem Lead.contacts_eq {stages : List Stage} {w w' : Watched τ} (h : Lead stages w w') :
    w'.contacts = w.contacts ++ stages.flatMap contacts := by
  induction h with
  | nil w => exact (List.append_nil w.contacts).symm
  | cons first _ ih => rw [ih, first.contacts_eq, List.append_assoc, List.flatMap_cons]

theorem Lead.guarded {stages : List Stage} {w w' : Watched τ} (h : Lead stages w w') :
    ∀ s ∈ stages, s.Guarded τ := by
  induction h with
  | nil w => simp
  | cons first _ ih => exact List.forall_mem_cons.2 ⟨first.guarded, ih⟩

/-- A transport that is always connected shows it at every look. -/
theorem Lead.connected {stages : List Stage} {w w' : Watched τ} (h : Lead stages w w')
    (hconnected : ∀ t : τ, (Transport.isConnected t).1 = true) :
    ∀ s ∈ stages, s.connected = true := by
  induction h with
  | nil w => simp
  | @cons s rest w w' w'' first _ ih =>
      exact List.forall_mem_cons.2 ⟨first.look.symm.trans (hconnected w.transport), ih⟩

end Stage

end Luminaire
