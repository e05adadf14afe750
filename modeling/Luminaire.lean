import Luminaire.Color.Notation
import Luminaire.Text.Bounded
import Luminaire.Text.Decimal
import Luminaire.Time
import Luminaire.Board.Convergence
import Luminaire.Board.Random
import Luminaire.Duty.Frame
import Luminaire.Dmx.Patch
import Luminaire.Dmx.Inbox
import Luminaire.Message.Effect
import Luminaire.Broker.Publisher
import Luminaire.Broker.Subscription
import Luminaire.Node.Connection
import Luminaire.Node.Pacer
import Luminaire.Usb.Router
import Luminaire.Proofs.Board.Edit
import Luminaire.Proofs.Node.Session
import Luminaire.Proofs.Node.Step
import Luminaire.Proofs.Node.Display
import Luminaire.Proofs.Broker.Store
import Luminaire.Proofs.Node.Announcement
import Luminaire.Proofs.Node.Universe
import Luminaire.Proofs.Usb.Exchange
import Luminaire.Proofs.Message.Reading
import Luminaire.Proofs.Message.Outcome
import Luminaire.Proofs.Message.Chain
import Luminaire.Proofs.Node.Dropped
import Luminaire.Proofs.Node.Dimming
import Luminaire.Proofs.Board.Fading
import Luminaire.Proofs.Broker.Reliable
import Luminaire.Proofs.Node.Settling
import Luminaire.Proofs.Message.Report
import Luminaire.Proofs.Node.Snapshot
import Luminaire.Proofs.Broker.Contacts
import Luminaire.Proofs.Broker.Subscribing
import Luminaire.Proofs.Node.Looking
import Luminaire.Proofs.Broker.Staggered
import Luminaire.Proofs.Node.Waiting
import Luminaire.Proofs.Broker.Refusal
import Luminaire.Proofs.Message.Filters
import Luminaire.Proofs.Node.Loop
import Luminaire.Proofs.Message.Owner
import Luminaire.Proofs.Node.Isolation
import Luminaire.Proofs.Broker.Presence
import Luminaire.Proofs.Node.Backlog
import Luminaire.Proofs.Message.Order
import Luminaire.Proofs.Board.Course
import Luminaire.Proofs.Broker.Round
import Luminaire.Proofs.Strobe.Beat
import Luminaire.Proofs.Message.Broadcast
import Luminaire.Proofs.Dmx.Scene
import Luminaire.Proofs.Dmx.Handover
import Luminaire.Proofs.Node.Desk
import Luminaire.Proofs.Usb.Precedence
import Luminaire.Proofs.Broker.Separation
import Luminaire.Proofs.Node.Room
import Luminaire.Proofs.Node.Horizon
import Luminaire.Proofs.Text.Overflow
import Luminaire.Proofs.Color.Codec
import Luminaire.Proofs.Color.Uniform
import Luminaire.Proofs.Node.Setup
import Luminaire.Proofs.Node.Identity
