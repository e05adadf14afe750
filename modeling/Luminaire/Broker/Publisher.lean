import Luminaire.Board.Basic
import Luminaire.Broker.Transport
import Luminaire.Color.Notation
import Luminaire.Text.Decimal

/-!
# Publishing the state

A node tells observers that it is there and how its channels stand. Telling everything at once
would overrun the network stack, so one poll sends the presence message, if it is due, and the
state of one channel: the first that has something to tell. The state goes out as five retained
messages, one for each `Attribute`, and the round ends at the first that is refused. A channel
counts as told only when all five were accepted; otherwise the next poll starts over with its
first message.
-/

namespace Luminaire

/-- What is reported of a channel. -/
inductive Attribute where
  | color
  | baseColor
  | status
  | brightness
  | mode
deriving DecidableEq

namespace Attribute

/-- The attributes in the order in which they are sent. -/
def all : List Attribute := [color, baseColor, status, brightness, mode]

/-- The word for the attribute in a topic. -/
def word : Attribute → String
  | color => "color"
  | baseColor => "bcolor"
  | status => "status"
  | brightness => "bright"
  | mode => "mode"

/-- The value of the attribute, as it is sent. -/
def report (c : Channel) : Attribute → String
  | color => c.current.toNotation
  | baseColor => c.base.toNotation
  | status => Decimal.writeByte c.status.digit
  | brightness => Decimal.writeByte c.brightness
  | mode => Decimal.writeByte c.mode.digit

end Attribute

namespace Board

variable {n : Nat}

/-- The first channel that has something to tell. -/
def firstPending? (b : Board n) : Option (Fin n) := b.channels.findFinIdx? Channel.pendingPublish

/-- The board after a channel has been told. -/
def markPublished (b : Board n) (i : Fin n) : Board n :=
  { b with channels := b.channels.set i { b.channels[i] with pendingPublish := false } }

end Board

/-- Why a message was not sent. -/
inductive PublishError where
  /-- Its topic is too long. -/
  | capacity (e : CapacityError)
  /-- The transport refused it. -/
  | transport (e : TransportError)
deriving DecidableEq

namespace PublishError

/-- The words for the error. -/
def message : PublishError → String
  | capacity e => e.message
  | transport e => e.message

end PublishError

/-- What a publisher has to remember. -/
structure Publisher where
  /-- The presence message has yet to be sent. -/
  onlinePending : Bool
deriving DecidableEq

namespace Publisher

variable {n : Nat} {τ : Type} [Transport τ]

/-- All messages are retained, so that late observers see the latest state. -/
def retain : Bool := true

/-- The presence message of a node that is there. -/
def onlineMessage : String := "online"

/-- The message that the broker sends for a node that is gone. -/
def offlineMessage : String := "offline"

/-- Before the first connection. -/
def start : Publisher := ⟨false⟩

/-- After a connection was made, presence is to be told. -/
def onConnected (_ : Publisher) : Publisher := ⟨true⟩

/-- Send a message whose topic may be too long. -/
def send (topic : Except CapacityError Topic) (payload : String) (t : τ) :
    Except PublishError Unit × τ :=
  match topic with
  | .error e => (.error (.capacity e), t)
  | .ok topic =>
      match Transport.publish t topic payload retain with
      | (.ok _, t) => (.ok (), t)
      | (.error e, t) => (.error (.transport e), t)

/-- Tell that the node is there. -/
def sendOnline (root : String) (t : τ) : Except PublishError Unit × τ :=
  send (Topic.will root) onlineMessage t

/-- Report some attributes of a channel, up to the first message that is not sent. -/
def sendAttributes (root : String) (number : Nat) (c : Channel) :
    List Attribute → τ → Except PublishError Unit × τ
  | [], t => (.ok (), t)
  | a :: rest, t =>
      match send (Topic.state root number a.word) (a.report c) t with
      | (.ok _, t) => sendAttributes root number c rest t
      | (.error e, t) => (.error e, t)

@[simp] theorem sendAttributes_nil (root : String) (number : Nat) (c : Channel) (t : τ) :
    sendAttributes root number c [] t = (.ok (), t) := rfl

theorem sendAttributes_cons (root : String) (number : Nat) (c : Channel) (a : Attribute)
    (rest : List Attribute) (t : τ) :
    sendAttributes root number c (a :: rest) t =
      match send (Topic.state root number a.word) (a.report c) t with
      | (.ok _, t) => sendAttributes root number c rest t
      | (.error e, t) => (.error e, t) := rfl

/-- Report the state of a channel. -/
def sendChannel (root : String) (number : Nat) (c : Channel) (t : τ) :
    Except PublishError Unit × τ :=
  sendAttributes root number c Attribute.all t

/-- What a poll leaves behind. -/
structure Round (n : Nat) (τ : Type) where
  publisher : Publisher
  board : Board n
  transport : τ
  /-- The channel that was told. -/
  published : Option (Fin n)

/-- Send the presence message if it is due; it is due until it has been accepted. -/
def pollOnline (p : Publisher) (root : String) (t : τ) : Publisher × τ :=
  if p.onlinePending then
    match sendOnline root t with
    | (.ok _, t) => (⟨false⟩, t)
    | (.error _, t) => (p, t)
  else (p, t)

/-- Tell the first channel that has something to tell. -/
def pollChannel (b : Board n) (root : String) (t : τ) : Option (Fin n) × Board n × τ :=
  match b.firstPending? with
  | none => (none, b, t)
  | some i =>
      match sendChannel root (i + 1) b.channels[i] t with
      | (.ok _, t) => (some i, b.markPublished i, t)
      | (.error _, t) => (none, b, t)

/-- One poll. Without a connection nothing is sent. -/
def poll (p : Publisher) (b : Board n) (root : String) (t : τ) : Round n τ :=
  match Transport.isConnected t with
  | (false, t) => ⟨p, b, t, none⟩
  | (true, t) =>
      let (p, t) := p.pollOnline root t
      let (published, b, t) := pollChannel b root t
      ⟨p, b, t, published⟩

end Publisher

end Luminaire
