import Luminaire.Proofs.Message.Outcome
import Luminaire.Proofs.Node.Alone
import Luminaire.Proofs.Node.Display

/-!
# Channels do not disturb each other

The channels of a board share its mark, the strobe level, the hues and the universe that comes in.
The `Lane` of a channel is the part of the node that its future depends on: besides the channel
there are the strobe level, the hues, the duties that its lamps show, and what the waiting universe
says to it. Every event that reaches the node acts on the lane as it stands, whatever the other
channels are; only writing the outputs depends on the mark, which any channel can leave. There the
lamps of every channel already show the board where the mark is missing, so the lane cannot tell
whether they were written.

Two runs are `Parallel` if one comes from the other by messages for other channels and by other
contents of slots that are not the channel's. They keep the lane the same.
-/

namespace Luminaire

namespace Dmx

/-- What a universe says to one channel. -/
structure Reading where
  color : Color
  mode : FadeMode
  strobe : UInt8

namespace Patch

/-- What the universe says to channel `i` of a board of `n` channels. -/
def read (p : Patch) (slots : Array UInt8) (i n : Nat) : Reading where
  color := p.color slots i
  mode := p.mode slots i n
  strobe := p.strobe slots n

/-- The slots that are for channel `i` of a board of `n` channels, with the strobe slot that is for
all of them. -/
def slotsOf (p : Patch) (i n : Nat) : List Nat :=
  [p.colorSlot i, p.colorSlot i + 1, p.colorSlot i + 2, p.modeSlot i n, p.strobeSlot n]

/-- The universes have the same in the slots of the channel, where a slot that was not sent counts
as zero. -/
def Agree (p : Patch) (i n : Nat) (slots slots' : Array UInt8) : Prop :=
  ∀ k ∈ p.slotsOf i n, slot slots k = slot slots' k

instance (p : Patch) (i n : Nat) (slots slots' : Array UInt8) :
    Decidable (p.Agree i n slots slots') :=
  inferInstanceAs (Decidable (∀ k ∈ p.slotsOf i n, slot slots k = slot slots' k))

theorem Agree.read_eq {p : Patch} {i n : Nat} {slots slots' : Array UInt8}
    (h : p.Agree i n slots slots') : p.read slots i n = p.read slots' i n := by
  simp only [Agree, slotsOf, List.forall_mem_cons] at h
  obtain ⟨hred, hgreen, hblue, hmode, hstrobe, -⟩ := h
  rw [read, read, color, color, mode, mode, strobe, strobe, hred, hgreen, hblue, hmode, hstrobe]

end Patch

end Dmx

namespace Channel

/-- The channel with nothing left to tell. -/
def told (c : Channel) : Channel := { c with pendingPublish := false }

theorem told_advance (c : Channel) : c.told.advance.told = c.advance.told := by
  have hconverging : c.told.isConverging = c.isConverging := rfl
  rw [advance, advance, hconverging]
  split <;> rfl

end Channel

namespace Destination

theorem draw_told {η : Type} [HueSource η] {n : Nat} (d : Destination) (hues : η) (i : Nat)
    (h : i < n) (c : Channel) : d.draw hues i h c.told = d.draw hues i h c := by
  cases d <;> rfl

end Destination

namespace Command

theorem told_touch (command : Command) (drawn : Color) (c : Channel) :
    (command.touch drawn c.told).told = (command.touch drawn c).told := by
  cases command <;> rfl

theorem drawn_told {η : Type} [HueSource η] {n : Nat} (command : Command) (hues : η) (i : Nat)
    (h : i < n) (c : Channel) : command.drawn hues i h c.told = command.drawn hues i h c := by
  cases command with
  | random d => exact d.draw_told hues i h c
  | _ => rfl

/-- The command sets something of the channel with index `j` alone, and takes no hue for it. -/
def SetsOnly (command : Command) (j : Nat) : Prop :=
  command.destination? = some (.channel j) ∧ command ≠ .random (.channel j)

namespace SetsOnly

variable {command : Command} {j : Nat}

theorem reaches_eq_false (h : command.SetsOnly j) {i : Nat} (hj : j ≠ i) :
    command.reaches i = false := by
  rw [reaches, h.1]
  exact beq_false_of_ne hj

theorem strobeAfter_eq (h : command.SetsOnly j) (level : UInt8) :
    command.strobeAfter level = level := by
  cases command with
  | strobe level' => cases h.1
  | _ => rfl

theorem huesAfter_eq {η : Type} [HueSource η] (h : command.SetsOnly j) (n : Nat) (hues : η) :
    command.huesAfter n hues = hues := by
  cases command with
  | random d => exact absurd (congrArg random (Option.some.inj h.1)) h.2
  | _ => rfl

end SetsOnly

end Command

/-- What the future of one channel depends on. -/
structure Lane (η : Type) where
  settings : Settings
  options : Options
  hues : η
  /-- The channel, all told. -/
  channel : Channel
  strobe : UInt8
  /-- What the lamps of the channel show. -/
  shown : Duties
  /-- What the waiting universe says to the channel, if one is waiting. -/
  waiting : Option Dmx.Reading

namespace Lane

variable {n : Nat} {η : Type}

def patch (lane : Lane η) : Dmx.Patch := ⟨lane.settings.dmxStart.toNat⟩

def root (lane : Lane η) : String := lane.settings.root.content

/-- The lane of the channel with index `i` after a message to a node of `n` channels. -/
def receive [HueSource η] (lane : Lane η) {i : Nat} (h : i < n) (topic : String)
    (payload : ByteArray) (retained : Bool) : Lane η :=
  match Command.parse lane.root n topic payload with
  | .error _ => lane
  | .ok command =>
      if command.accepted n retained then
        { lane with
          hues := command.huesAfter n lane.hues
          channel :=
            if command.reaches i then
              (command.touch (command.drawn lane.hues i h lane.channel) lane.channel).told
            else lane.channel
          strobe := command.strobeAfter lane.strobe }
      else lane

/-- The lane with a universe that has come in for `n` channels, unless it is too long. -/
def store (lane : Lane η) (i n : Nat) (slots : Array UInt8) : Lane η :=
  if slots.size ≤ Dmx.universeSize then
    { lane with waiting := some (lane.patch.read slots i n) }
  else lane

/-- The lane after the waiting universe was taken. -/
def readDmx (lane : Lane η) : Lane η :=
  if lane.options.dmx then
    match lane.waiting with
    | none => lane
    | some reading =>
        { lane with
          channel := { lane.channel with mode := reading.mode, target := reading.color }
          strobe := reading.strobe
          waiting := none }
  else lane

/-- The lane one step of the lamps later. -/
def process (lane : Lane η) : Lane η :=
  { lane.readDmx with channel := lane.readDmx.channel.advance.told }

/-- The lane with the outputs up to date. -/
def flush (lane : Lane η) : Lane η :=
  { lane with channel := { lane.channel with dirty := false }, shown := lane.channel.duties }

end Lane

namespace Node

variable {n : Nat} {η : Type} {i : Nat}

/-- The lane of the channel with index `i`. -/
def lane (node : Node n η) (h : i < n) : Lane η where
  settings := node.settings
  options := node.options
  hues := node.hues
  channel := node.board.channels[i].told
  strobe := node.board.strobe
  shown := node.output.shown[i]
  waiting := node.inbox.take.1.map fun slots => node.patch.read slots i n

theorem lane_receive [HueSource η] (node : Node n η) (h : i < n) (topic : String)
    (payload : ByteArray) (retained : Bool) :
    (node.receive topic payload retained).2.lane h =
      (node.lane h).receive h topic payload retained := by
  have hroot : (node.lane h).root = node.root := rfl
  rw [receive, Board.receive, Lane.receive, hroot]
  cases Command.parse node.root n topic payload with
  | error e => rfl
  | ok command =>
      simp only [Command.apply_eq_ite]
      by_cases haccepted : command.accepted n retained = true
      · have hchannel : ((command.outcome node.board node.hues).channels[i]).told =
            if command.reaches i then
              (command.touch (command.drawn node.hues i h node.board.channels[i].told)
                node.board.channels[i].told).told
            else node.board.channels[i].told := by
          rw [Command.getElem_channels_outcome, Command.drawn_told, Command.told_touch]
          split <;> rfl
        rw [if_pos haccepted, if_pos haccepted, Option.map_some]
        show { node.lane h with
            hues := command.huesAfter n node.hues
            channel := ((command.outcome node.board node.hues).channels[i]).told
            strobe := command.strobeAfter node.board.strobe } = _
        rw [hchannel]
        rfl
      · rw [if_neg haccepted, if_neg haccepted]
        rfl

theorem lane_readDmx (node : Node n η) (h : i < n) :
    node.readDmx.lane h = (node.lane h).readDmx := by
  have hoptions : (node.lane h).options = node.options := rfl
  rw [readDmx, Lane.readDmx, hoptions]
  by_cases hdmx : node.options.dmx = true
  · rw [if_pos hdmx, if_pos hdmx]
    cases hwaiting : node.inbox.waiting with
    | none => simp [lane, Dmx.Inbox.take, Dmx.Inbox.empty, hwaiting]
    | some slots =>
        simp only [lane, Dmx.Inbox.take, Dmx.Inbox.empty, hwaiting, Option.map_some,
          Option.map_none, Dmx.Patch.getElem_channels_apply]
        rfl
  · rw [if_neg hdmx, if_neg hdmx]

theorem lane_process (node : Node n η) (h : i < n) :
    node.process.2.lane h = (node.lane h).process := by
  obtain ⟨strobe, hstrobe⟩ := node.readDmx.advance.tickStrobe_eq
  rw [process, hstrobe, Lane.process, ← lane_readDmx]
  show { node.readDmx.lane h with channel := (node.readDmx.board.advance.channels[i]).told } =
    { node.readDmx.lane h with channel := (node.readDmx.board.channels[i]).told.advance.told }
  rw [Board.getElem_channels_advance, Channel.told_advance]

/-- It makes no difference to a channel whether the outputs are written, if they show the board
wherever it is not marked. -/
theorem lane_flush {node : Node n η} (hshows : node.output.Shows node.board) (h : i < n) :
    node.flush.1.lane h = (node.lane h).flush := by
  cases hchanged : node.board.changed with
  | true =>
      rw [flush, Output.flush_of_changed node.output hchanged]
      simp only [lane, Lane.flush, Board.render, Board.settle, Vector.getElem_map]
      rfl
  | false =>
      obtain ⟨hshown, hclean⟩ := hshows hchanged
      have hchannel : { node.board.channels[i].told with dirty := false } =
          node.board.channels[i].told := by
        rw [← hclean i h]
        rfl
      have hduties : node.board.channels[i].told.duties = node.output.shown[i] := by
        rw [hshown, Board.render, Vector.getElem_map]
        rfl
      rw [flush, Output.flush_of_unchanged node.output hchanged, Lane.flush]
      show node.lane h =
        { node.lane h with
          channel := { node.board.channels[i].told with dirty := false }
          shown := node.board.channels[i].told.duties }
      rw [hchannel, hduties]
      rfl

theorem lane_poll {τ : Type} [Transport τ] (node : Node n η) (h : i < n) (now : Instant) (t : τ) :
    (node.poll now t).node.lane h = node.lane h := by
  have hlane : (node.poll now t).node.lane h =
      { node.lane h with
        channel := (node.poll now t).node.board.channels[i].told
        strobe := (node.poll now t).node.board.strobe } := rfl
  rcases node.board_poll now t with hsame | ⟨j, -, htold⟩
  · rw [hlane, hsame]
    rfl
  · rw [hlane, htold, Board.getElem_channels_markPublished]
    split <;> rfl

end Node

namespace Lane

variable {n : Nat} {η : Type} {i : Nat}

theorem receive_of_setsOnly [HueSource η] (lane : Lane η) (h : i < n) {topic : String}
    {payload : ByteArray} {command : Command} {j : Nat}
    (hparse : Command.parse lane.root n topic payload = .ok command) (hsets : command.SetsOnly j)
    (hj : j ≠ i) (retained : Bool) : lane.receive h topic payload retained = lane := by
  simp only [receive, hparse, hsets.huesAfter_eq, hsets.strobeAfter_eq,
    hsets.reaches_eq_false hj, Bool.false_eq_true, if_false, ite_self]

theorem store_of_agree (lane : Lane η) {slots slots' : Array UInt8}
    (hsize : slots.size ≤ Dmx.universeSize) (hsize' : slots'.size ≤ Dmx.universeSize)
    (hagree : lane.patch.Agree i n slots slots') :
    lane.store i n slots = lane.store i n slots' := by
  rw [store, store, if_pos hsize, if_pos hsize', hagree.read_eq]

end Lane

namespace Event

variable {θ τ : Type}

/-- The event is nothing to the channel with index `i`: a message that sets something of another
channel alone, or a universe that is too long and therefore refused. -/
inductive Passes (root : String) (n i : Nat) : Event θ τ → Prop where
  | foreign {topic : String} {payload : ByteArray} {retained : Bool} {command : Command} {j : Nat}
      (hparse : Command.parse root n topic payload = .ok command) (hsets : command.SetsOnly j)
      (hj : j ≠ i) : Passes root n i (receive topic payload retained)
  | refused {slots : Array UInt8} (hsize : Dmx.universeSize < slots.size) :
      Passes root n i (storeUniverse slots)

/-- The events are the same to the channel with index `i`: they are equal, except that polls may
find different transports, and universes may differ in slots that are not the channel's. -/
inductive Matches (p : Dmx.Patch) (n i : Nat) : Event θ τ → Event θ τ → Prop where
  | connack (now : Instant) : Matches p n i (connack now) (connack now)
  | receive (topic : String) (payload : ByteArray) (retained : Bool) :
      Matches p n i (receive topic payload retained) (receive topic payload retained)
  | storeUniverse {slots slots' : Array UInt8} (hsize : slots.size ≤ Dmx.universeSize)
      (hsize' : slots'.size ≤ Dmx.universeSize) (hagree : p.Agree i n slots slots') :
      Matches p n i (storeUniverse slots) (storeUniverse slots')
  | process : Matches p n i process process
  | poll (now : Instant) (t t' : τ) : Matches p n i (poll now t) (poll now t')
  | flush : Matches p n i flush flush

/-- The events of two runs that are the same to the channel with index `i` of a node with `n`
channels. What is nothing to the channel may come in one of them only. -/
inductive Parallel (root : String) (p : Dmx.Patch) (n i : Nat) :
    List (Event θ τ) → List (Event θ τ) → Prop where
  | nil : Parallel root p n i [] []
  | both {e e' : Event θ τ} {rest rest' : List (Event θ τ)} (he : e.Matches p n i e')
      (hrest : Parallel root p n i rest rest') : Parallel root p n i (e :: rest) (e' :: rest')
  | left {e : Event θ τ} {rest rest' : List (Event θ τ)} (he : e.Passes root n i)
      (hrest : Parallel root p n i rest rest') : Parallel root p n i (e :: rest) rest'
  | right {e : Event θ τ} {rest rest' : List (Event θ τ)} (he : e.Passes root n i)
      (hrest : Parallel root p n i rest rest') : Parallel root p n i rest (e :: rest')

/-- Wherever one run is cut, the other can be cut so that both parts are parallel. -/
theorem Parallel.exists_cut {root : String} {p : Dmx.Patch} {n i : Nat}
    {events events' : List (Event θ τ)} (h : Parallel root p n i events events')
    {front rest : List (Event θ τ)} (hcut : events = front ++ rest) :
    ∃ front' rest', events' = front' ++ rest' ∧ Parallel root p n i front front' ∧
      Parallel root p n i rest rest' := by
  induction h generalizing front with
  | nil =>
      obtain ⟨rfl, rfl⟩ := List.append_eq_nil_iff.1 hcut.symm
      exact ⟨[], [], rfl, .nil, .nil⟩
  | both he hrest ih =>
      rcases List.cons_eq_append_iff.1 hcut with ⟨rfl, rfl⟩ | ⟨front₁, rfl, hcut₁⟩
      · exact ⟨[], _, rfl, .nil, .both he hrest⟩
      · obtain ⟨front', rest', rfl, hfront, hback⟩ := ih hcut₁
        exact ⟨_ :: front', rest', rfl, .both he hfront, hback⟩
  | left he hrest ih =>
      rcases List.cons_eq_append_iff.1 hcut with ⟨rfl, rfl⟩ | ⟨front₁, rfl, hcut₁⟩
      · exact ⟨[], _, rfl, .nil, .left he hrest⟩
      · obtain ⟨front', rest', hcut', hfront, hback⟩ := ih hcut₁
        exact ⟨front', rest', hcut', .left he hfront, hback⟩
  | right he hrest ih =>
      obtain ⟨front', rest', rfl, hfront, hback⟩ := ih hcut
      exact ⟨_ :: front', rest', rfl, .right he hfront, hback⟩

end Event

namespace Session

variable {n : Nat} {η θ τ : Type} {i : Nat}

/-- The lane of the channel with index `i`. -/
def lane (s : Session n η) (h : i < n) : Lane η := s.node.lane h

/-- The sessions have the same channel with index `i`, except for what observers have been told of
it, the same strobe level, and the same duties on the lamps of the channel. -/
structure SameChannel (h : i < n) (s s' : Session n η) : Prop where
  channel : s'.node.board.channels[i].told = s.node.board.channels[i].told
  strobe : s'.node.board.strobe = s.node.board.strobe
  shown : s'.node.output.shown[i] = s.node.output.shown[i]

theorem sameChannel_of_lane (h : i < n) {s s' : Session n η} (hlane : s.lane h = s'.lane h) :
    SameChannel h s s' :=
  ⟨congrArg Lane.channel hlane.symm, congrArg Lane.strobe hlane.symm,
    congrArg Lane.shown hlane.symm⟩

variable [HueSource η] [HueSource θ] [Transport τ]

theorem lane_connack (s : Session n η) (h : i < n) (now : Instant) :
    (s.step? (.connack now : Event θ τ)).map (lane · h) =
      (Subscription.Plan.schedule? now).map fun _ => s.lane h := by
  rw [step?, Node.connack?, Option.map_map, Option.map_map]
  rfl

theorem lane_receive (s : Session n η) (h : i < n) (topic : String) (payload : ByteArray)
    (retained : Bool) :
    (s.step? (.receive topic payload retained : Event θ τ)).map (lane · h) =
      some ((s.lane h).receive h topic payload retained) :=
  congrArg some (s.node.lane_receive h topic payload retained)

theorem lane_storeUniverse (s : Session n η) (h : i < n) (slots : Array UInt8) :
    (s.step? (.storeUniverse slots : Event θ τ)).map (lane · h) =
      some ((s.lane h).store i n slots) := by
  by_cases hsize : slots.size ≤ Dmx.universeSize
  · have hstore := s.node.inbox.store_of_le hsize
    rw [Lane.store, if_pos hsize, step?, Node.storeUniverse, hstore]
    rfl
  · have hstore := s.node.inbox.store_of_lt (Nat.lt_of_not_le hsize)
    rw [Lane.store, if_neg hsize, step?, Node.storeUniverse, hstore]
    rfl

theorem settings_step? {s s' : Session n η} {e : Event θ τ} (h : s.step? e = some s') :
    s'.node.settings = s.node.settings :=
  step?_invariant (I := fun s₁ => s₁.node.settings = s.node.settings)
    (fun _ hedit _ => hedit.settings) (fun _ _ => s.node.settings_process) (fun _ _ _ hs => hs)
    (fun _ hs => hs) (fun _ _ _ hs => hs) rfl h

/-- What is nothing to the channel leaves its lane as it is. -/
theorem lane_of_passes {s : Session n η} (h : i < n) {e : Event θ τ}
    (he : e.Passes s.node.root n i) : (s.step? e).map (lane · h) = some (s.lane h) := by
  cases he with
  | foreign hparse hsets hj =>
      rw [lane_receive, (s.lane h).receive_of_setsOnly h hparse hsets hj]
  | refused hsize =>
      rw [lane_storeUniverse, Lane.store, if_neg (Nat.not_le.2 hsize)]

/-- Events that are the same to the channel do the same to its lane. -/
theorem lane_of_matches {s s' : Session n η} (hs : s.Displays) (hs' : s'.Displays) (h : i < n)
    (hlane : s.lane h = s'.lane h) {e e' : Event θ τ} (he : e.Matches s.node.patch n i e') :
    (s.step? e).map (lane · h) = (s'.step? e').map (lane · h) := by
  cases he with
  | connack now => rw [lane_connack, lane_connack, hlane]
  | receive topic payload retained => rw [lane_receive, lane_receive, hlane]
  | storeUniverse hsize hsize' hagree =>
      rw [lane_storeUniverse, lane_storeUniverse, ← hlane]
      exact congrArg some ((s.lane h).store_of_agree hsize hsize' hagree)
  | process =>
      refine congrArg some ?_
      show s.node.process.2.lane h = s'.node.process.2.lane h
      rw [Node.lane_process, Node.lane_process]
      exact congrArg Lane.process hlane
  | poll now t t' =>
      refine congrArg some ?_
      show (s.node.poll now (⟨t, s.calls⟩ : Recorded τ)).node.lane h =
        (s'.node.poll now (⟨t', s'.calls⟩ : Recorded τ)).node.lane h
      rw [Node.lane_poll, Node.lane_poll]
      exact hlane
  | flush =>
      refine congrArg some ?_
      show s.node.flush.1.lane h = s'.node.flush.1.lane h
      rw [Node.lane_flush hs.shows, Node.lane_flush hs'.shows]
      exact congrArg Lane.flush hlane

/-- Parallel runs keep the lane of the channel the same. -/
theorem lane_of_parallel {settings : Settings} (h : i < n) {events events' : List (Event θ τ)}
    (hevents : Event.Parallel settings.root.content ⟨settings.dmxStart.toNat⟩ n i events events')
    {s s' : Session n η} (hs : s.Displays) (hs' : s'.Displays)
    (hsettings : s.node.settings = settings) (hlane : s.lane h = s'.lane h) :
    (s.run? events).map (lane · h) = (s'.run? events').map (lane · h) := by
  -- that the outputs show the board has to be carried along in both runs, as one flush may write
  -- where the other does not
  induction hevents generalizing s s' with
  | nil => exact congrArg some hlane
  | @both e e' rest rest' he hrest ih =>
      subst hsettings
      have hstep := lane_of_matches hs hs' h hlane he
      rw [run?_cons, run?_cons]
      cases hfirst : s.step? e with
      | none =>
          rw [hfirst, Option.map_none, eq_comm, Option.map_eq_none_iff] at hstep
          rw [hstep]
          rfl
      | some s₁ =>
          rw [hfirst, Option.map_some, eq_comm, Option.map_eq_some_iff] at hstep
          obtain ⟨s₁', hfirst', hlane'⟩ := hstep
          rw [hfirst', Option.bind_some, Option.bind_some]
          exact ih (hs.step hfirst) (hs'.step hfirst') (settings_step? hfirst) hlane'.symm
  | left he hrest ih =>
      subst hsettings
      obtain ⟨s₁, hfirst, hlane₁⟩ := Option.map_eq_some_iff.1 (lane_of_passes h he)
      rw [run?_cons, hfirst, Option.bind_some]
      exact ih (hs.step hfirst) hs' (settings_step? hfirst) (hlane₁.trans hlane)
  | right he hrest ih =>
      have hsettings' : s'.node.settings = settings :=
        (congrArg Lane.settings hlane).symm.trans hsettings
      subst hsettings'
      obtain ⟨s₁, hfirst, hlane₁⟩ := Option.map_eq_some_iff.1 (lane_of_passes h he)
      rw [run?_cons, hfirst, Option.bind_some]
      exact ih hs (hs'.step hfirst) hsettings (hlane.trans hlane₁.symm)

theorem sameChannel_of_parallel (settings : Settings) (options : Options) (hues : η) (h : i < n)
    {events events' : List (Event θ τ)}
    (hevents : Event.Parallel settings.root.content ⟨settings.dmxStart.toNat⟩ n i events events') :
    Option.Rel (SameChannel h) ((powerUp n settings options hues).run? events)
      ((powerUp n settings options hues).run? events') := by
  have hstart := displays_powerUp (n := n) settings options hues
  have hlane := lane_of_parallel h hevents hstart hstart rfl rfl
  cases hrun : (powerUp n settings options hues).run? events with
  | none =>
      rw [hrun, Option.map_none, eq_comm, Option.map_eq_none_iff] at hlane
      rw [hlane]
      exact Option.Rel.none
  | some s =>
      rw [hrun, Option.map_some, eq_comm, Option.map_eq_some_iff] at hlane
      obtain ⟨s', hrun', hlane'⟩ := hlane
      rw [hrun']
      exact Option.Rel.some (sameChannel_of_lane h hlane'.symm)

/-- Two runs from power-up that are the same to a channel, because one leaves out messages that set
something of other channels or because their universes differ in the slots of other channels, come
to the same channel, strobe level and duties. So they do after every event: after a front part of
one run the channel is as after the parallel front part of the other. -/
theorem channel_isolated (settings : Settings) (options : Options) (hues : η) (h : i < n)
    {events events' : List (Event θ τ)}
    (hevents : Event.Parallel settings.root.content ⟨settings.dmxStart.toNat⟩ n i events events') :
    Option.Rel (SameChannel h) ((powerUp n settings options hues).run? events)
        ((powerUp n settings options hues).run? events') ∧
      ∀ front rest, events = front ++ rest → ∃ front' rest', events' = front' ++ rest' ∧
        Event.Parallel settings.root.content ⟨settings.dmxStart.toNat⟩ n i front front' ∧
        Event.Parallel settings.root.content ⟨settings.dmxStart.toNat⟩ n i rest rest' ∧
        Option.Rel (SameChannel h) ((powerUp n settings options hues).run? front)
          ((powerUp n settings options hues).run? front') := by
  refine ⟨sameChannel_of_parallel settings options hues h hevents, fun front rest hcut => ?_⟩
  obtain ⟨front', rest', hcut', hfront, hrest⟩ := hevents.exists_cut hcut
  exact ⟨front', rest', hcut', hfront, hrest,
    sameChannel_of_parallel settings options hues h hfront⟩

/-- One run does not hear of a color for the second channel, and its universe stops before the slots
of that channel. -/
theorem channel_isolated_red :
    let start : Session 2 SplitMix :=
      powerUp 2 Settings.blank { Options.standard with dmx := true } ⟨0⟩
    let events : List (Event SplitMix Steady) :=
      [.receive "/set/2/color" "00ff00".toUTF8 false, .receive "/set/1/switch" "1".toUTF8 false,
        .storeUniverse #[255, 0, 0, 9, 9, 9, 0, 1], .process, .poll ⟨0⟩ ⟨⟩, .flush]
    let events' : List (Event SplitMix Steady) :=
      [.receive "/set/1/switch" "1".toUTF8 false, .storeUniverse #[255], .process, .poll ⟨0⟩ ⟨⟩,
        .flush]
    Option.Rel (SameChannel (by decide : 0 < 2)) (start.run? events) (start.run? events') ∧
      (start.run? events').map (fun s => s.node.output.shown.get 0) = some ⟨4096, 0, 0⟩ := by
  intro start events events'
  have hparse : Command.parse "" 2 "/set/2/color" "00ff00".toUTF8 =
      .ok (.color (.channel 1) ⟨0, 255, 0⟩) := rfl
  refine ⟨(channel_isolated Settings.blank _ (⟨0⟩ : SplitMix) (by decide) ?_).1,
    by decide +kernel⟩
  refine .left (.foreign hparse ⟨rfl, by decide⟩ (by decide : 1 ≠ 0)) ?_
  refine .both (.receive _ _ _) (.both (.storeUniverse (by decide) (by decide) (by decide)) ?_)
  exact .both .process (.both (.poll _ _ _) (.both .flush .nil))

end Session

end Luminaire
