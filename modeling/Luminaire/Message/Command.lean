import Luminaire.Board.Basic

/-!
# Commands

A command is what a message tells a board to do. Most commands are of one of six kinds and name
the channels they are meant for; the strobe command is for the board as a whole. The `Subject`
of a command is its kind, or the strobe. It is what the last part of a topic says, so it is also
what a node subscribes to and what a refused payload is reported for.
-/

namespace Luminaire

/-- What a command for channels sets. -/
inductive Kind where
  | color
  | baseColor
  | brightness
  | mode
  | switch
  | random
deriving DecidableEq

namespace Kind

/-- The word for the kind in a topic. -/
def word : Kind → String
  | color => "color"
  | baseColor => "bcolor"
  | brightness => "bright"
  | mode => "mode"
  | switch => "switch"
  | random => "rand"

/-- All kinds. -/
def all : List Kind := [color, baseColor, brightness, mode, switch, random]

/-- The kind that a word stands for. -/
def ofWord? (word : List Char) : Option Kind := all.find? fun kind => kind.word.toList == word

theorem mem_all (kind : Kind) : kind ∈ all := by
  cases kind <;> decide

end Kind

/-- What a command is about. -/
inductive Subject where
  /-- A kind of command for channels. -/
  | kind (k : Kind)
  /-- The strobe of the whole board. -/
  | strobe
deriving DecidableEq

namespace Subject

/-- The word for the subject in a topic. -/
def word : Subject → String
  | kind k => k.word
  | strobe => "strobo"

end Subject

/-- What a message tells a board to do. -/
inductive Command where
  /-- Show a color: it becomes target and base color at full brightness, and a lit color switches
  on, black switches off. -/
  | color (d : Destination) (color : Color)
  /-- Set the base color and dim it. -/
  | baseColor (d : Destination) (color : Color)
  /-- Set the brightness and dim with it. -/
  | brightness (d : Destination) (value : UInt8)
  /-- Set the fade mode. -/
  | mode (d : Destination) (mode : FadeMode)
  /-- Set the status. -/
  | switch (d : Destination) (status : Status)
  /-- Take a random color. -/
  | random (d : Destination)
  /-- Set the strobe level, or nothing if the message was empty. -/
  | strobe (level : Option UInt8)
  /-- A command of a kind that is not known. -/
  | unrecognized
deriving DecidableEq

namespace Command

/-- What the command is about, if it is known. -/
def subject? : Command → Option Subject
  | color _ _ => some (.kind .color)
  | baseColor _ _ => some (.kind .baseColor)
  | brightness _ _ => some (.kind .brightness)
  | mode _ _ => some (.kind .mode)
  | switch _ _ => some (.kind .switch)
  | random _ => some (.kind .random)
  | strobe _ => some .strobe
  | unrecognized => none

/-- The channels that the command is meant for, if it is meant for channels. -/
def destination? : Command → Option Destination
  | color d _ => some d
  | baseColor d _ => some d
  | brightness d _ => some d
  | mode d _ => some d
  | switch d _ => some d
  | random d => some d
  | strobe _ => none
  | unrecognized => none

end Command

end Luminaire
