import Luminaire.Text.Bounded

/-!
# Settings

The settings of a node survive a restart, so each text has a fixed amount of room. A text that
is too long is cut at the last character that fits.
-/

namespace Luminaire

namespace Settings

/-- The most bytes of a user name or password. -/
def credentialCapacity : Nat := 15

/-- The most bytes of the root of the topics. -/
def rootCapacity : Nat := 31

end Settings

/-- What is set up for a node. -/
structure Settings where
  /-- The address of the broker. -/
  broker : Vector UInt8 4
  user : Text Settings.credentialCapacity
  password : Text Settings.credentialCapacity
  /-- What all topics of the node start with. -/
  root : Text Settings.rootCapacity
  /-- The first DMX slot of the node. -/
  dmxStart : UInt8
deriving DecidableEq

namespace Settings

/-- The settings of a node that was never set up. -/
def blank : Settings where
  broker := Vector.replicate 4 0
  user := Text.empty
  password := Text.empty
  root := Text.empty
  dmxStart := 0

/-- Settings without credentials, with the first slot of a universe. -/
def create (broker : Vector UInt8 4) (root : String) : Settings :=
  { blank with broker := broker, root := Text.truncate root }

/-- Set the user name. -/
def setUser (s : Settings) (user : String) : Settings := { s with user := Text.truncate user }

/-- Set the password. -/
def setPassword (s : Settings) (password : String) : Settings :=
  { s with password := Text.truncate password }

/-- Set the root of the topics. -/
def setRoot (s : Settings) (root : String) : Settings := { s with root := Text.truncate root }

/-- Set user name and password. -/
def withCredentials (s : Settings) (user password : String) : Settings :=
  (s.setUser user).setPassword password

/-- Set the first DMX slot. -/
def withDmxStart (s : Settings) (start : UInt8) : Settings := { s with dmxStart := start }

end Settings

end Luminaire
