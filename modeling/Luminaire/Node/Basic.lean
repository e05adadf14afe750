import Luminaire.Board.Convergence
import Luminaire.Broker.Publisher
import Luminaire.Broker.Subscription
import Luminaire.Dmx.Inbox
import Luminaire.Dmx.Patch
import Luminaire.Duty.Frame
import Luminaire.Message.Effect
import Luminaire.Node.Settings

/-!
# Nodes

A node is a board with everything that works on it. It reacts to five events: the broker
acknowledges a connection (`connack`), a message comes in (`receive`), the time has come for a
step of the lamps (`process`), for the broker (`poll`), or for the outputs (`flush`). Each event
is one function from the node to the node after it, together with what leaves the node: calls on
the transport, a request to the strobe line, a frame for the outputs.
-/

namespace Luminaire

/-- How a node is run. -/
structure Options where
  /-- The time between two steps of the lamps. -/
  processEvery : Duration
  /-- The time between two polls of the broker. -/
  pollEvery : Duration
  /-- The strobe level drives the line that enables the outputs. -/
  strobe : Bool
  /-- Universes from a lighting desk are read. -/
  dmx : Bool
deriving DecidableEq

namespace Options

/-- Fifty steps and ten polls a second, without strobe and without a lighting desk. -/
def standard : Options where
  processEvery := Duration.ofMillis (1000 / Strobe.ticksPerSecond.toUInt64)
  pollEvery := Duration.ofMillis 100
  strobe := false
  dmx := false

end Options

/-- A node with `n` channels that draws its hues from a source `η`. -/
structure Node (n : Nat) (η : Type) where
  settings : Settings
  options : Options
  board : Board n
  hues : η
  publisher : Publisher
  plan : Subscription.Plan
  /-- The strobe, if it drives the line. -/
  strobe : Option Strobe
  output : Output n
  inbox : Dmx.Inbox Dmx.universeSize

namespace Node

variable {n : Nat} {η τ : Type}

/-- A node after power-up. -/
def powerUp (n : Nat) (settings : Settings) (options : Options) (hues : η) : Node n η where
  settings := settings
  options := options
  board := Board.powerUp n
  hues := hues
  publisher := Publisher.start
  plan := Subscription.Plan.empty
  strobe := if options.strobe then some Strobe.start else none
  output := Output.powerUp n
  inbox := Dmx.Inbox.empty

/-- The place of the node in a universe. -/
def patch (node : Node n η) : Dmx.Patch := ⟨node.settings.dmxStart.toNat⟩

/-- What all topics of the node start with. -/
def root (node : Node n η) : String := node.settings.root.content

/-- The broker has acknowledged a connection: subscribe and tell presence. There is no such node
if the last subscriptions would lie past the end of time. -/
def connack? (node : Node n η) (now : Instant) : Option (Node n η) :=
  (Subscription.Plan.schedule? now).map fun plan =>
    { node with plan := plan, publisher := node.publisher.onConnected }

/-- A message has come in. Returns the command that was carried out, if one was. -/
def receive [HueSource η] (node : Node n η) (topic : String) (payload : ByteArray)
    (retained : Bool) : Option Command × Node n η :=
  match node.board.receive node.hues node.root topic payload retained with
  | none => (none, node)
  | some (command, board, hues) => (some command, { node with board := board, hues := hues })

/-- A universe has come in. -/
def storeUniverse (node : Node n η) (slots : Array UInt8) :
    Except Dmx.UniverseTooLong (Node n η) :=
  (node.inbox.store slots).map fun inbox => { node with inbox := inbox }

/-- Take the universe that is waiting, if there is one, and set the board as it says. -/
def readDmx (node : Node n η) : Node n η :=
  if node.options.dmx then
    match node.inbox.take with
    | (none, inbox) => { node with inbox := inbox }
    | (some slots, inbox) =>
        { node with inbox := inbox, board := node.patch.apply slots node.board }
  else node

/-- Let every channel advance. -/
def advance (node : Node n η) : Node n η := { node with board := node.board.advance }

/-- Tick the strobe, if it drives the line. -/
def tickStrobe (node : Node n η) : Option Strobe.Line × Node n η :=
  match node.strobe with
  | none => (none, node)
  | some strobe =>
      let (line, strobe) := strobe.tick node.board.strobe
      (line, { node with strobe := some strobe })

/-- A step of the lamps, and what it asks of the strobe line. -/
def process (node : Node n η) : Option Strobe.Line × Node n η :=
  node.readDmx.advance.tickStrobe

/-- What a poll leaves behind. -/
structure Round (n : Nat) (η τ : Type) where
  node : Node n η
  transport : τ
  /-- The channel that was told. -/
  published : Option (Fin n)

/-- A step of the broker: subscriptions whose time has come, then what there is to tell. -/
def poll [Transport τ] (node : Node n η) (now : Instant) (t : τ) : Round n η τ :=
  let subscribed := node.plan.poll now node.root t
  let told := node.publisher.poll node.board node.root subscribed.transport
  { node :=
      { node with plan := subscribed.plan, publisher := told.publisher, board := told.board }
    transport := told.transport
    published := told.published }

/-- Write the outputs if they do not show the board. Returns the frame that was written. -/
def flush (node : Node n η) : Node n η × Option (Frame n) :=
  let (output, board, written) := node.output.flush node.board
  ({ node with output := output, board := board }, written)

end Node

end Luminaire
