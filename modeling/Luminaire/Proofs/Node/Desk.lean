import Luminaire.Proofs.Board.Course
import Luminaire.Proofs.Dmx.Handover
import Luminaire.Proofs.Node.Dropped
import Luminaire.Proofs.Node.Universe

/-!
# A node at a lighting desk

The desk stores a universe whenever it likes, and a node that reads them takes one in every step of
the lamps. So a run of a session is a list of acts on the inbox (`Session.acts`), and from their log
one can tell what the next step of the lamps goes by: the universe that waits, or none.

Between two steps of the lamps nothing looks at the inbox. An event in between does the same whatever
is in there (`Session.step?_withInbox`). So all universes but the last one that fits might as well not
have come, and the last one might have come right before the step.
-/

namespace Luminaire

open Dmx (Act Inbox Log Shelf Waits handed logged stored)

namespace Event

variable {θ τ : Type}

/-- The universe that comes in. -/
def universe? : Event θ τ → Option (Array UInt8)
  | storeUniverse slots => some slots
  | _ => none

/-- The universes that come in and are not too long, the first one first. -/
def accepted (events : List (Event θ τ)) : List (Array UInt8) :=
  (events.filterMap universe?).filter (·.size ≤ Dmx.universeSize)

/-- The events without the universes that come in. -/
def muted (events : List (Event θ τ)) : List (Event θ τ) := events.filter (·.universe?.isNone)

end Event

namespace Node

variable {n : Nat} {η : Type}

/-- What a step of the lamps does to the inbox. -/
def takes (node : Node n η) : List Act := if node.options.dmx then [.take] else []

theorem inbox_process (node : Node n η) :
    node.process.2.inbox = (logged Inbox.perform node.inbox node.takes).2 := by
  obtain ⟨strobe, hstrobe⟩ := node.readDmx.advance.tickStrobe_eq
  rw [process, hstrobe]
  show node.readDmx.inbox = _
  rw [readDmx, takes]
  split
  · show _ = node.inbox.take.2
    split
    next inbox htake => rw [htake]
    next slots inbox htake => rw [htake]
  · rfl

theorem options_process (node : Node n η) : node.process.2.options = node.options := by
  obtain ⟨strobe, hstrobe⟩ := node.readDmx.advance.tickStrobe_eq
  rw [process, hstrobe]
  show node.readDmx.options = _
  rw [readDmx]
  split
  · split <;> rfl
  · rfl

end Node

namespace Session

variable {n : Nat} {η θ τ : Type}

/-- What an event does to the inbox. -/
def actsOf (s : Session n η) : Event θ τ → List Act
  | .storeUniverse slots => [.store slots]
  | .process => s.node.takes
  | .tick now _ => if now < s.pacer.process.next then [] else s.node.takes
  | _ => []

/-- The session with something else in its inbox. -/
def withInbox (s : Session n η) (box : Inbox Dmx.universeSize) : Session n η :=
  s.withNode { s.node with inbox := box }

theorem filterMap_universe?_actsOf (s : Session n η) (e : Event θ τ) :
    (s.actsOf e).filterMap Act.universe? = e.universe?.toList := by
  have htakes : s.node.takes.filterMap Act.universe? = [] := by
    rw [Node.takes]
    split <;> rfl
  cases e with
  | process => exact htakes
  | tick now t =>
      rw [actsOf]
      split
      · rfl
      · exact htakes
  | _ => rfl

theorem ne_take_of_mem_actsOf {s : Session n η} {e : Event θ τ} (h : ¬ s.processes e) {act : Act}
    (hact : act ∈ s.actsOf e) : act ≠ .take := by
  cases e with
  | storeUniverse slots =>
      obtain rfl := List.mem_singleton.1 hact
      exact nofun
  | process => exact absurd trivial h
  | tick now t =>
      rw [actsOf, if_pos (Decidable.not_not.1 h)] at hact
      cases hact
  | _ => cases hact

section Runs

variable [HueSource η] [HueSource θ] [Transport τ]

/-- What a run does to the inbox. -/
def acts (s : Session n η) : List (Event θ τ) → List Act
  | [] => []
  | e :: rest =>
      s.actsOf e ++
        match s.step? e with
        | none => []
        | some s' => s'.acts rest

theorem acts_cons {s s' : Session n η} {e : Event θ τ} (h : s.step? e = some s')
    (rest : List (Event θ τ)) : s.acts (e :: rest) = s.actsOf e ++ s'.acts rest := by
  rw [acts, h]

/-- What a run does to the inbox and what comes of it. -/
def inboxLog (s : Session n η) (events : List (Event θ τ)) : Log :=
  (logged Inbox.perform s.node.inbox (s.acts events)).1

theorem step?_storeUniverse (s : Session n η) (slots : Array UInt8) :
    s.step? (.storeUniverse slots : Event θ τ) =
      some (s.withInbox (s.node.inbox.perform (.store slots)).2) := by
  rw [step?, Node.storeUniverse, Inbox.perform]
  cases s.node.inbox.store slots <;> rfl

theorem options_step? {s s' : Session n η} {e : Event θ τ} (h : s.step? e = some s') :
    s'.node.options = s.node.options := by
  refine step?_preserves (I := fun t => t.node.options = s.node.options) (fun _ _ _ => id)
    (fun topic payload retained hs => ?_) (fun _ _ => id) (fun _ => ?_) (fun _ _ _ => id)
    (fun _ => id) (fun _ _ _ => id) rfl h
  · rw [Node.receive_eq_hear]
    exact hs
  · exact s.node.options_process.trans

theorem inbox_step? {s s' : Session n η} {e : Event θ τ} (h : s.step? e = some s') :
    s'.node.inbox = (logged Inbox.perform s.node.inbox (s.actsOf e)).2 := by
  cases e with
  | connack now =>
      rw [step?, Option.map_eq_some_iff] at h
      obtain ⟨node, hconnack, rfl⟩ := h
      rw [Node.connack?, Option.map_eq_some_iff] at hconnack
      obtain ⟨plan, _, rfl⟩ := hconnack
      rfl
  | receive topic payload retained =>
      obtain rfl := Option.some.inj h
      rw [Node.receive_eq_hear]
      rfl
  | storeUniverse slots =>
      rw [step?_storeUniverse] at h
      obtain rfl := Option.some.inj h
      rfl
  | operate op =>
      obtain rfl := Option.some.inj h
      rfl
  | process =>
      obtain rfl := Option.some.inj h
      exact s.node.inbox_process
  | poll now t =>
      obtain rfl := Option.some.inj h
      rfl
  | flush =>
      obtain rfl := Option.some.inj h
      rfl
  | tick now t =>
      obtain ⟨process, poll, rfl⟩ := eq_paced_of_tick? h
      have hlit : (s.lit now).node.inbox =
          (logged Inbox.perform s.node.inbox (s.actsOf (.tick now t : Event θ τ))).2 := by
        rw [lit, actsOf]
        split
        · rfl
        · exact s.node.inbox_process
      rw [← hlit]
      split <;> rfl

theorem options_run? {s s' : Session n η} {events : List (Event θ τ)}
    (h : s.run? events = some s') : s'.node.options = s.node.options :=
  run?_invariant (P := fun _ _ => True) (I := fun t => t.node.options = s.node.options)
    (fun _ _ _ _ hs hstep => (options_step? hstep).trans hs)
    (along_of_forall (fun _ _ => trivial) s events) rfl h

/-- The inbox goes through the acts of the run. -/
theorem inbox_run? {s s' : Session n η} {events : List (Event θ τ)}
    (h : s.run? events = some s') :
    s'.node.inbox = (logged Inbox.perform s.node.inbox (s.acts events)).2 := by
  induction events generalizing s with
  | nil =>
      obtain rfl : s = s' := Option.some.inj h
      rfl
  | cons e rest ih =>
      obtain ⟨s₁, hstep, hrest⟩ := Option.bind_eq_some_iff.1 h
      rw [acts_cons hstep, Dmx.snd_logged_append, ← inbox_step? hstep]
      exact ih hrest

/-- Every universe that comes in reaches the inbox. -/
theorem stored_run? {s s' : Session n η} {events : List (Event θ τ)}
    (h : s.run? events = some s') :
    stored (s.inboxLog events) = Event.accepted events := by
  rw [inboxLog, Inbox.stored_logged, Event.accepted]
  congr 1
  induction events generalizing s with
  | nil => rfl
  | cons e rest ih =>
      obtain ⟨s₁, hstep, hrest⟩ := Option.bind_eq_some_iff.1 h
      rw [acts_cons hstep, List.filterMap_append, filterMap_universe?_actsOf, ih hrest,
        List.filterMap_cons]
      cases e.universe? <;> rfl

/-- An event in between does the same whatever is in the inbox. -/
theorem step?_withInbox {s : Session n η} {e : Event θ τ} (hstep : ¬ s.processes e)
    (hsilent : e.universe? = none) (box : Inbox Dmx.universeSize) :
    (s.withInbox box).step? e = (s.step? e).map (·.withInbox box) := by
  cases e with
  | connack now =>
      rw [step?, step?, Node.connack?, Node.connack?]
      cases Subscription.Plan.schedule? now <;> rfl
  | receive topic payload retained =>
      rw [step?, step?, Node.receive_eq_hear, Node.receive_eq_hear]
      rfl
  | storeUniverse slots => cases hsilent
  | operate op => rfl
  | process => exact absurd trivial hstep
  | poll now t => rfl
  | flush => rfl
  | tick now t =>
      have hearly : now < s.pacer.process.next := Decidable.not_not.1 hstep
      have hearly' : now < (s.withInbox box).pacer.process.next := hearly
      have hpoll : (s.withInbox box).pacer.poll = s.pacer.poll := rfl
      simp only [step?, tick?, Pacer.tick?, Cadence.fire?_of_early hearly,
        Cadence.fire?_of_early hearly', hpoll]
      cases s.pacer.poll.fire? now with
      | none => rfl
      | some turn =>
          obtain ⟨polled, poll⟩ := turn
          cases polled <;> rfl

/-- Without a step of the lamps the inbox makes no difference, and nothing takes from it. -/
theorem run?_muted {s : Session n η} {stretch : List (Event θ τ)}
    (h : Along (fun s e => ¬ s.processes e) s stretch) (box : Inbox Dmx.universeSize) :
    (s.withInbox box).run? (Event.muted stretch) = (s.run? stretch).map (·.withInbox box) := by
  induction stretch generalizing s with
  | nil => rfl
  | cons e rest ih =>
      obtain ⟨hstep, hrest⟩ := h
      cases huniverse : e.universe? with
      | none =>
          rw [Event.muted, List.filter_cons_of_pos (by rw [huniverse]; rfl), run?_cons, run?_cons,
            step?_withInbox hstep huniverse]
          cases hnext : s.step? e with
          | none => rfl
          | some s' => exact ih (hrest s' hnext)
      | some slots =>
          cases e with
          | storeUniverse slots =>
              have hnext := s.step?_storeUniverse (θ := θ) (τ := τ) slots
              rw [run?_cons, hnext]
              exact ih (hrest _ hnext)
          | _ => cases huniverse

theorem ne_take_of_mem_acts {s : Session n η} {stretch : List (Event θ τ)}
    (h : Along (fun s e => ¬ s.processes e) s stretch) :
    ∀ act ∈ s.acts stretch, act ≠ .take := by
  induction stretch generalizing s with
  | nil => exact nofun
  | cons e rest ih =>
      intro act hact
      rw [acts, List.mem_append] at hact
      rcases hact with hact | hact
      · exact ne_take_of_mem_actsOf h.1 hact
      · cases hnext : s.step? e with
        | none =>
            rw [hnext] at hact
            cases hact
        | some s' =>
            rw [hnext] at hact
            exact ih (h.2 s' hnext) act hact

theorem slots?_of_stretch {s s' : Session n η} {stretch : List (Event θ τ)}
    (h : Along (fun s e => ¬ s.processes e) s stretch) (hrun : s.run? stretch = some s') :
    s'.node.inbox.slots? = (Event.accepted stretch).getLast?.or s.node.inbox.slots? := by
  rw [inbox_run? hrun, Inbox.slots?_logged_of_no_take _ (ne_take_of_mem_acts h), ← inboxLog,
    stored_run? hrun]

/-- Of the universes that come in between two steps of the lamps, the last one that fits might as well
have come alone, right before the second step. -/
theorem run?_latest {s : Session n η} {stretch : List (Event θ τ)}
    (h : Along (fun s e => ¬ s.processes e) s stretch) :
    s.run? (Event.muted stretch ++
      ((Event.accepted stretch).getLast?.map .storeUniverse).toList) = s.run? stretch := by
  have hmuted : s.run? (Event.muted stretch) = (s.run? stretch).map (·.withInbox s.node.inbox) :=
    run?_muted h s.node.inbox
  rw [run?_append, hmuted]
  cases hrun : s.run? stretch with
  | none => rfl
  | some s' =>
      have hinbox := slots?_of_stretch h hrun
      show (s'.withInbox s.node.inbox).run? _ = some s'
      cases hlast : (Event.accepted stretch).getLast? with
      | none =>
          rw [hlast] at hinbox
          rw [← Inbox.slots?_injective hinbox]
          rfl
      | some slots =>
          have hfits : slots.size ≤ Dmx.universeSize := by
            have hmem := (List.mem_filter.1 (List.mem_of_getLast? hlast)).2
            simpa using hmem
          rw [hlast] at hinbox
          show ((s'.withInbox s.node.inbox).step? (.storeUniverse slots : Event θ τ)).bind _ = _
          rw [step?_storeUniverse]
          show some (s'.withInbox (s.node.inbox.perform (.store slots)).2) = _
          have hstored : (s.node.inbox.perform (.store slots)).2 = s'.node.inbox := by
            apply Inbox.slots?_injective
            rw [hinbox, Inbox.perform_store_of_le _ hfits]
            rfl
          rw [hstored]
          rfl

end Runs

section Process

variable {s : Session n η} {log : Log}

theorem board_process_of_waits (hdmx : s.node.options.dmx = true)
    (hserves : s.node.inbox.Serves log) {slots : Array UInt8} (h : Waits slots log) :
    s.process.node.board = (s.node.patch.apply slots s.node.board).advance := by
  have hwaiting : s.node.inbox.take.1 = some slots :=
    Dmx.Answer.taken.inj ((hserves.hands slots).2 h)
  show s.node.process.2.board = _
  rw [s.node.board_process, Node.board_readDmx_of_waiting hdmx hwaiting]

theorem board_process_of_none_waits (hserves : s.node.inbox.Serves log)
    (h : ¬ ∃ slots, Waits slots log) : s.process.node.board = s.node.board.advance := by
  have hnew : s.node.inbox.hasNew = false := Dmx.Answer.looked.inj (hserves.tellsNone.2 h)
  apply board_process_of_quiet
  rw [Node.hasUniverse, hnew, Bool.and_false]

/-- A step of the lamps leaves nothing behind in the inbox. -/
theorem inbox_process_of_dmx (hdmx : s.node.options.dmx = true) :
    s.process.node.inbox = Inbox.empty := by
  show s.node.process.2.inbox = _
  rw [s.node.inbox_process, Node.takes, if_pos hdmx]
  rfl

/-- A channel whose mode slot is zero shows the color of the universe at once. -/
theorem current_process_of_waits (hdmx : s.node.options.dmx = true)
    (hserves : s.node.inbox.Serves log) {slots : Array UInt8} (hwaits : Waits slots log) {i : Nat}
    (h : i < n) (hmode : Dmx.slot slots (s.node.patch.modeSlot i n) = 0) :
    s.process.node.board.channels[i].current = s.node.patch.color slots i := by
  rw [board_process_of_waits hdmx hserves hwaits, Board.getElem_channels_advance,
    Channel.current_advance, Dmx.Patch.getElem_channels_apply, Dmx.Patch.mode, if_pos hmode]
  rfl

end Process

/-- Whatever was done to an inbox, it refuses the universes that are too long, and whoever takes from
it next gets the last one that was stored unless it was handed out already; a shelf with a flag
answers the same. So a step of the lamps of a session goes by the universe that waits, which a
channel with a zero in its mode slot shows at once, and without one the channels only advance. Either
way nothing is left for the step after it: every universe is handed out once at most, and none after a
newer one. And what comes between two steps of the lamps might as well come with no universe but the
last one that fits, at the end. -/
theorem universes_handed_over [HueSource η] [HueSource θ] [Transport τ] (settings : Settings)
    (options : Options) (hues : η) (hdmx : options.dmx = true) :
    (∀ (size : Nat) (past : List Act),
      let log := (logged Inbox.perform (Inbox.empty : Inbox size) past).1
      (logged Inbox.perform (Inbox.empty : Inbox size) past).2.Serves log ∧
      (handed log).Sublist (stored log) ∧
      (logged Shelf.perform (Shelf.empty : Shelf size) past).1 = log) ∧
    ∀ (events : List (Event θ τ)) (s : Session n η),
      (powerUp n settings options hues).run? events = some s →
      let log := (powerUp n settings options hues).inboxLog events
      (∀ slots, Waits slots log →
        s.process.node.board = (s.node.patch.apply slots s.node.board).advance ∧
        ∀ i (h : i < n), Dmx.slot slots (s.node.patch.modeSlot i n) = 0 →
          s.process.node.board.channels[i].current = s.node.patch.color slots i) ∧
      ((¬ ∃ slots, Waits slots log) → s.process.node.board = s.node.board.advance) ∧
      s.process.node.inbox = Inbox.empty ∧
      (handed log).Sublist (Event.accepted events) ∧
      ∀ stretch : List (Event θ τ), Along (fun s e => ¬ s.processes e) s stretch →
        s.run? (Event.muted stretch ++
          ((Event.accepted stretch).getLast?.map .storeUniverse).toList) = s.run? stretch := by
  refine ⟨fun size past => ⟨Inbox.serves past, Inbox.handed_sublist _ past, Shelf.logged_eq past⟩,
    fun events s hrun => ?_⟩
  have hdmx : s.node.options.dmx = true := (congrArg Options.dmx (options_run? hrun)).trans hdmx
  have hserves : s.node.inbox.Serves ((powerUp n settings options hues).inboxLog events) := by
    rw [inbox_run? hrun]
    exact Inbox.serves _
  refine ⟨fun slots hwaits => ⟨board_process_of_waits hdmx hserves hwaits,
    fun i h => current_process_of_waits hdmx hserves hwaits h⟩,
    board_process_of_none_waits hserves, inbox_process_of_dmx hdmx, ?_, fun stretch => run?_latest⟩
  rw [← stored_run? hrun]
  exact Inbox.handed_sublist _ _

/-- Red is taken, green is replaced by blue, which waits. Then one universe more does not matter if
another one follows. -/
theorem universes_handed_over_blue :
    let options : Options := { Options.standard with dmx := true }
    let start := powerUp 1 Settings.blank options (⟨0⟩ : SplitMix)
    let events : List (Event SplitMix Steady) :=
      [.storeUniverse #[255], .process, .storeUniverse #[0, 255], .storeUniverse #[0, 0, 255]]
    let past : List Act := [.store #[1, 2], .store #[1, 2, 3]]
    options.dmx = true ∧
      ((logged Inbox.perform (Inbox.empty : Inbox 2) past).2.perform .take).1 =
        .taken (some #[1, 2]) ∧
      ∃ s, start.run? events = some s ∧
        (∀ i (h : i < 1), s.process.node.board.channels[i].current = ⟨0, 0, 255⟩) ∧
        (handed (start.inboxLog events)).Sublist [#[255], #[0, 255], #[0, 0, 255]] ∧
        s.run? ([.flush, .storeUniverse #[2]] : List (Event SplitMix Steady)) =
          s.run? ([.storeUniverse #[1], .flush, .storeUniverse #[2]] :
            List (Event SplitMix Steady)) := by
  intro options start events past
  obtain ⟨hinbox, hsession⟩ :=
    universes_handed_over (n := 1) (θ := SplitMix) (τ := Steady) Settings.blank options
      (⟨0⟩ : SplitMix) rfl
  obtain ⟨s, hrun, hpatch⟩ : ∃ s, start.run? events = some s ∧ s.node.patch = ⟨0⟩ :=
    ⟨_, rfl, rfl⟩
  obtain ⟨hwaits, -, -, hhanded, hlatest⟩ := hsession events s hrun
  have hblue : Waits #[0, 0, 255] (start.inboxLog events) :=
    ⟨[(.store #[255], .stored), (.take, .taken (some #[255])), (.store #[0, 255], .stored)], [],
      rfl, by decide⟩
  refine ⟨rfl, ?_, s, hrun, fun i h => ?_, hhanded, ?_⟩
  · exact ((hinbox 2 past).1.hands #[1, 2]).2 ⟨[], [(_, .refused 3)], rfl, by decide⟩
  · obtain rfl := Nat.lt_one_iff.1 h
    have hcurrent := (hwaits _ hblue).2 0 h
    rw [hpatch] at hcurrent
    exact hcurrent (by decide)
  · exact hlatest [.storeUniverse #[1], .flush, .storeUniverse #[2]]
      ⟨id, fun _ _ => ⟨id, fun _ _ => ⟨id, fun _ _ => trivial⟩⟩⟩

end Session

end Luminaire
