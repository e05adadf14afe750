import Luminaire.Broker.Publisher
import Luminaire.Node.Settings
import Luminaire.Text.Hexadecimal

/-!
# Connecting to the broker

For a connection the node needs an identifier that no other node has, and a will: the message
that the broker sends in its name when the connection is lost. The identifier is made of the
start of the host name, for people, and the hardware address, which makes it unique.
-/

namespace Luminaire

/-- The most bytes of a client identifier: four of the host name, a dash, twelve digits. -/
def Connection.clientIdCapacity : Nat := 17

/-- What a client tells the broker when it connects. -/
structure Connection where
  broker : Vector UInt8 4
  clientId : Text Connection.clientIdCapacity
  user : Text Settings.credentialCapacity
  password : Text Settings.credentialCapacity
  willTopic : Topic
  willMessage : String
  willQos : UInt8
  willRetain : Bool
deriving DecidableEq

namespace Connection

/-- The first four characters of the host name, a dash, and the hardware address in hexadecimal. -/
def clientName (hostname : String) (mac : Vector UInt8 6) : String :=
  String.ofList (hostname.toList.take 4 ++ '-' :: mac.toList.flatMap Hexadecimal.digitsOfByte)

/-- The connection of a node. There is none if the start of the host name takes too many bytes. -/
def ofSettings (s : Settings) (hostname : String) (mac : Vector UInt8 6) :
    Except CapacityError Connection :=
  match Text.ofString? (clientName hostname mac), Topic.will s.root.content with
  | some clientId, .ok willTopic =>
      .ok
        { broker := s.broker
          clientId := clientId
          user := s.user
          password := s.password
          willTopic := willTopic
          willMessage := Publisher.offlineMessage
          willQos := 0
          willRetain := Publisher.retain }
  | _, _ => .error {}

end Connection

end Luminaire
