import Luminaire.Message.Effect
import Luminaire.Proofs.Board.Reach

/-!
# What a command does

A command that is not refused does three things: it `touch`es the channels that it reaches, it may
set the strobe level, and it may mark the board as changed. Written out like this, its `outcome`
is one board instead of the boards between the operations of a chain, and `apply_eq_ite` says
that the chain ends there, unless the command is refused.

A random color is drawn for every channel that is reached: from the next hue for a single channel,
whose brightness becomes the value of the color, and from as many hues as there are channels for a
broadcast.
-/

namespace Luminaire

namespace Destination

variable {η : Type} [HueSource η]

/-- The color that is drawn for a channel. -/
def draw {n : Nat} (d : Destination) (hues : η) (i : Nat) (h : i < n) (c : Channel) : Color :=
  match d with
  | .all => Color.ofHue (HueSource.draw n hues).1[i] 1.0
  | .channel _ => Color.ofHue (HueSource.next hues).1 (Hsv.fraction c.brightness)

/-- The hues that are left on a board of `n` channels. -/
def huesAfter (d : Destination) (n : Nat) (hues : η) : η :=
  match d with
  | .all => (HueSource.draw n hues).2
  | .channel _ => (HueSource.next hues).2

end Destination

namespace Board

variable {n : Nat} {η : Type} [HueSource η]

theorem mapOn_mapOn (b : Board n) (d : Destination) (f g : Channel → Channel) :
    (b.mapOn d f).mapOn d g = b.mapOn d fun c => g (f c) := by
  refine ext_channels (fun i h => ?_) rfl rfl
  rw [getElem_channels_mapOn, getElem_channels_mapOn, getElem_channels_mapOn]
  split <;> rfl

theorem update_bind_update (b : Board n) (d : Destination) (replayed : Bool)
    (f g : Channel → Channel) :
    ((b.update d replayed f).bind fun b => b.update d replayed g) =
      b.update d replayed fun c => g (f c) := by
  rw [update_eq_ite, update_eq_ite]
  split
  next h => rw [Option.bind_some, update_eq_ite, if_pos h, mapOn_mapOn]
  next => rfl

/-- The board with a random color on every channel that the destination covers. -/
def tintOn (b : Board n) (d : Destination) (hues : η) : Board n :=
  { b with
    channels := b.channels.mapFinIdx fun i c h =>
      if d.covers i then c.tint (d.draw hues i h c) else c }

theorem getElem_channels_tintOn (b : Board n) (d : Destination) (hues : η) (i : Nat) (h : i < n) :
    (b.tintOn d hues).channels[i] =
      if d.covers i then b.channels[i].tint (d.draw hues i h b.channels[i])
      else b.channels[i] := by
  simp [tintOn]

theorem randomize_eq_ite (b : Board n) (d : Destination) (hues : η) :
    b.randomize d hues =
      if d.accepted n false then some (b.tintOn d hues, d.huesAfter n hues) else none := by
  cases d with
  | all =>
      have hboard : b.tintOn .all hues = { b with
          channels := Vector.zipWith (fun c hue => c.tint (Color.ofHue hue 1.0)) b.channels
            (HueSource.draw n hues).1 } := by
        refine ext_channels (fun i h => ?_) rfl rfl
        simp [tintOn, Destination.covers, Destination.draw]
      rw [hboard]
      rfl
  | channel j =>
      by_cases hj : j < n
      · have hboard : b.tintOn (.channel j) hues = { b with
            channels := b.channels.set j (b.channels[j].tint
              (Color.ofHue (HueSource.next hues).1 (Hsv.fraction b.channels[j].brightness))) } := by
          refine ext_channels (fun i h => ?_) rfl rfl
          by_cases hij : j = i
          · subst hij
            simp [tintOn, Destination.covers, Destination.draw]
          · simp [tintOn, Destination.covers, hij]
        rw [randomize, dif_pos hj, hboard]
        simp [Destination.accepted, hj]
        rfl
      · rw [randomize_channel_of_le b (Nat.le_of_not_lt hj)]
        simp [Destination.accepted, hj]

end Board

namespace Command

variable {n : Nat} {η : Type} [HueSource η]

/-- The command is meant for the channel with this index. -/
def reaches (command : Command) (i : Nat) : Bool := command.destination?.any fun d => d.covers i

/-- A board of `n` channels does not refuse the command. -/
def accepted (n : Nat) (retained : Bool) : Command → Bool
  | .color d _ => d.accepted n retained
  | .baseColor d _ => d.accepted n retained
  | .brightness d _ => d.accepted n retained
  | .mode d _ => d.accepted n retained
  | .switch d _ => d.accepted n retained
  | .random d => !retained && d.accepted n false
  | .strobe level => level.isSome
  | .unrecognized => false

/-- A channel that is reached, after the command. `drawn` is the color that chance has for it. -/
def touch (command : Command) (drawn : Color) (c : Channel) : Channel :=
  match command with
  | .color _ shade =>
      { c with
        target := shade
        base := shade
        brightness := 255
        status := Status.ofColor shade
        pendingPublish := true }
  | .baseColor _ shade => c.tint shade
  | .brightness _ value => { c with brightness := value, pendingPublish := true }.redim
  | .mode _ m => { c with mode := m, pendingPublish := true }
  | .switch _ status => { c with status := status, pendingPublish := true }
  | .random _ => { c.tint drawn with status := .on }
  | .strobe _ => c
  | .unrecognized => c

/-- The color that chance has for a channel. Only a random color asks for it. -/
def drawn (command : Command) (hues : η) (i : Nat) (h : i < n) (c : Channel) : Color :=
  match command with
  | .random d => d.draw hues i h c
  | _ => c.base

/-- The strobe level after the command. -/
def strobeAfter (command : Command) (level : UInt8) : UInt8 :=
  match command with
  | .strobe (some level) => level
  | _ => level

/-- The command sets a status, so that the outputs have to be written. -/
def setsStatus : Command → Bool
  | .color _ _ => true
  | .switch _ _ => true
  | .random _ => true
  | _ => false

/-- The hues that are left after the command. -/
def huesAfter (command : Command) (n : Nat) (hues : η) : η :=
  match command with
  | .random d => d.huesAfter n hues
  | _ => hues

/-- The board after the command, if it is not refused. -/
def outcome (command : Command) (b : Board n) (hues : η) : Board n where
  channels := b.channels.mapFinIdx fun i c h =>
    if command.reaches i then command.touch (command.drawn hues i h c) c else c
  strobe := command.strobeAfter b.strobe
  changed := command.setsStatus || b.changed

theorem getElem_channels_outcome (command : Command) (b : Board n) (hues : η) (i : Nat)
    (h : i < n) :
    (command.outcome b hues).channels[i] =
      if command.reaches i then command.touch (command.drawn hues i h b.channels[i]) b.channels[i]
      else b.channels[i] := by
  simp [outcome]

/-- A command that draws no color is one update of the channels that it reaches. -/
theorem apply_eq_update {command : Command} {d : Destination} (hd : command.destination? = some d)
    (hcolor : command ≠ .random d) (b : Board n) (hues : η) (retained : Bool) :
    command.apply b hues retained =
      (b.update d retained fun c => command.touch c.base c).map fun b' =>
        ({ b' with changed := command.setsStatus || b'.changed }, hues) := by
  cases command with
  | color _ c =>
      obtain rfl := Option.some.inj hd
      simp only [apply, Board.setTarget, Board.setBase, Board.setBrightness, Board.setStatus,
        Option.bind_eq_bind, Option.map_eq_bind, ← Option.bind_assoc, Board.update_bind_update]
      rw [Option.bind_assoc]
      rfl
  | baseColor _ c =>
      obtain rfl := Option.some.inj hd
      simp only [apply, Board.setBase, Board.redim, Option.bind_eq_bind, Option.map_eq_bind,
        ← Option.bind_assoc, Board.update_bind_update]
      rfl
  | brightness _ value =>
      obtain rfl := Option.some.inj hd
      simp only [apply, Board.setBrightness, Board.redim, Option.bind_eq_bind, Option.map_eq_bind,
        ← Option.bind_assoc, Board.update_bind_update]
      rfl
  | mode _ m =>
      obtain rfl := Option.some.inj hd
      simp only [apply, Board.setMode, Option.bind_eq_bind, Option.map_eq_bind]
      rfl
  | switch _ s =>
      obtain rfl := Option.some.inj hd
      simp only [apply, Board.setStatus, Option.bind_eq_bind, Option.map_eq_bind]
      rw [Option.bind_assoc]
      rfl
  | random _ =>
      obtain rfl := Option.some.inj hd
      exact absurd rfl hcolor
  | strobe _ => cases hd
  | unrecognized => cases hd

theorem apply_eq_ite_of_destination (command : Command) {d : Destination}
    (hd : command.destination? = some d) (hcolor : command ≠ .random d) (b : Board n) (hues : η)
    (retained : Bool) :
    command.apply b hues retained =
      if d.accepted n retained then some (command.outcome b hues, hues) else none := by
  have houtcome : command.outcome b hues =
      { b.mapOn d fun c => command.touch c.base c with
        changed := command.setsStatus || b.changed } := by
    refine Board.ext_channels (fun i h => ?_) ?_ rfl
    · rw [getElem_channels_outcome, reaches, hd]
      refine Eq.trans ?_
        (Board.getElem_channels_mapOn b d (fun c => command.touch c.base c) i h).symm
      cases command <;> first | rfl | exact absurd (congrArg random (Option.some.inj hd)) hcolor
    · cases command <;> first | rfl | cases hd
  rw [apply_eq_update hd hcolor, Board.update_eq_ite, houtcome]
  split <;> rfl

theorem apply_random_eq_ite (b : Board n) (d : Destination) (hues : η) :
    (random d).apply b hues false =
      if d.accepted n false then some ((random d).outcome b hues, d.huesAfter n hues)
      else none := by
  simp only [apply, Bool.false_eq_true, if_false, Board.randomize_eq_ite, Option.bind_eq_bind]
  by_cases h : d.accepted n false = true
  · rw [if_pos h, if_pos h, Option.bind_some, Board.setStatus, Board.update_eq_ite, if_pos h]
    refine congrArg (fun b' => some (b', d.huesAfter n hues)) ?_
    refine Board.ext_channels (fun i hi => ?_) rfl rfl
    rw [Board.getElem_channels_mapOn, getElem_channels_outcome, Board.getElem_channels_tintOn]
    show (if d.covers i then _ else _) = if d.covers i then _ else _
    split <;> rfl
  · rw [if_neg h, if_neg h]
    rfl

/-- A command is refused, or its outcome is the board after it. -/
theorem apply_eq_ite (command : Command) (b : Board n) (hues : η) (retained : Bool) :
    command.apply b hues retained =
      if command.accepted n retained then
        some (command.outcome b hues, command.huesAfter n hues)
      else none := by
  cases command with
  | color d v => exact apply_eq_ite_of_destination (.color d v) rfl nofun b hues retained
  | baseColor d v => exact apply_eq_ite_of_destination (.baseColor d v) rfl nofun b hues retained
  | brightness d v => exact apply_eq_ite_of_destination (.brightness d v) rfl nofun b hues retained
  | mode d v => exact apply_eq_ite_of_destination (.mode d v) rfl nofun b hues retained
  | switch d v => exact apply_eq_ite_of_destination (.switch d v) rfl nofun b hues retained
  | random d =>
      cases retained with
      | true => rfl
      | false => exact apply_random_eq_ite b d hues
  | strobe level =>
      cases level with
      | none => rfl
      | some level =>
          refine congrArg (fun b' => some (b', hues)) ?_
          refine Board.ext_channels (fun i h => ?_) rfl rfl
          rw [getElem_channels_outcome]
          rfl
  | unrecognized => rfl

theorem eq_outcome_of_apply {command : Command} {b b' : Board n} {hues hues' : η}
    {retained : Bool} (h : command.apply b hues retained = some (b', hues')) :
    b' = command.outcome b hues ∧ hues' = command.huesAfter n hues := by
  rw [apply_eq_ite] at h
  split at h
  next => exact Prod.mk.inj (Option.some.inj h.symm)
  next => cases h

end Command

end Luminaire
