import Luminaire.Text.Bounded

/-!
# Topics

A broker sorts messages by topic. All topics of a node start with its root; below it, `/get/` is
what the node tells, `/set/` is what it is told, and `/status/lwt` is where it says whether it
is there. A topic has room for `Topic.capacity` bytes, and one that needs more does not exist:
it is never cut, since a cut topic is the topic of something else. A topic is written piece by
piece, and does not exist if any of the pieces finds no room.
-/

namespace Luminaire

/-- A text did not fit into the room there is for it. -/
structure CapacityError where
deriving DecidableEq

/-- The most bytes that a topic can have. -/
def Topic.capacity : Nat := 64

/-- A topic, or a pattern of topics. -/
abbrev Topic := Text Topic.capacity

namespace CapacityError

/-- The words for the error. -/
def message (_ : CapacityError) : String :=
  "topic exceeds " ++ Nat.repr Topic.capacity ++ " bytes"

end CapacityError

namespace Topic

/-- What stands between the root and a command. -/
def setSegment : String := "/set/"

/-- What stands between the root and a reported value. -/
def getSegment : String := "/get/"

/-- What follows the root in the topic of the strobe command. -/
def strobeSuffix : String := "/set/strobo"

/-- What follows the root in the topic of the presence message. -/
def willSuffix : String := "/status/lwt"

/-- The pieces one behind the other as a topic, if they fit. -/
def build (pieces : List String) : Except CapacityError Topic :=
  match Text.ofPieces? pieces with
  | some topic => .ok topic
  | none => .error {}

/-- The topic under which the named value of a channel is reported. Channels are numbered from
one. -/
def state (root : String) (number : Nat) (name : String) : Except CapacityError Topic :=
  build [root, getSegment, Nat.repr number, "/", name]

/-- The pattern of the commands of one kind, for any channel. -/
def commandFilter (root kind : String) : Except CapacityError Topic :=
  build [root, setSegment ++ "+/", kind]

/-- The topic of the strobe command. -/
def strobe (root : String) : Except CapacityError Topic := build [root, strobeSuffix]

/-- The topic of the presence message. -/
def will (root : String) : Except CapacityError Topic := build [root, willSuffix]

theorem build_eq_ok_iff (pieces : List String) (topic : Topic) :
    build pieces = .ok topic ↔ String.join pieces = topic.content := by
  rw [← Text.ofPieces?_eq_some_iff, build]
  cases Text.ofPieces? pieces <;> simp

theorem build_eq_error_iff (pieces : List String) (e : CapacityError) :
    build pieces = .error e ↔ capacity < (String.join pieces).utf8ByteSize := by
  rw [← Text.ofString?_eq_none_iff, ← Text.ofPieces?_eq, build]
  cases Text.ofPieces? pieces <;> simp

theorem join_state (root name : String) (number : Nat) :
    String.join [root, getSegment, Nat.repr number, "/", name] =
      root ++ getSegment ++ Nat.repr number ++ "/" ++ name := by
  simp [String.append_assoc]

theorem join_triple (root segment kind : String) :
    String.join [root, segment, kind] = root ++ segment ++ kind := by
  simp [String.append_assoc]

theorem join_pair (root suffix : String) : String.join [root, suffix] = root ++ suffix := by
  simp

end Topic

end Luminaire
