import Luminaire.Proofs.Broker.Reliable
import Luminaire.Proofs.Node.Alone
import Luminaire.Proofs.Node.Display

/-!
# A node that is left alone settles

If nothing comes from outside any more, a node has some work left: fades to finish, channels to
tell of, outputs to write, subscriptions to make. Each part of it comes to an end, and none of
them makes work for a part that has ended before. First the lamps arrive, 255 steps after the last
change at the latest. From then on no step of the lamps marks the board or has something to tell, so
a flush brings the outputs up to date for good, and each poll that goes through tells one more
channel: after `k` of them the first `k` channels have nothing to tell.
-/

namespace Luminaire

namespace Goal

/-- The duties that the lamps of a channel are to have in the end: if it is on, the luminance of each
component of the target, and if it is off, none. -/
def duties (g : Goal) : Duties :=
  match g.status with
  | .on =>
      ⟨Duty.ofComponent g.target.red, Duty.ofComponent g.target.green,
        Duty.ofComponent g.target.blue⟩
  | .off => ⟨0, 0, 0⟩

end Goal

namespace Channel

theorem duties_of_arrived {c : Channel} (h : c.isConverging = false) :
    c.duties = c.goal.duties := by
  rw [duties, Goal.duties, (isConverging_eq_false_iff c).1 h]
  rfl

end Channel

namespace Board

variable {n : Nat}

/-- The channels before the one with index `k` have nothing to tell. -/
def IdleBelow (b : Board n) (k : Nat) : Prop :=
  ∀ i (h : i < n), i < k → b.channels[i].pendingPublish = false

theorem IdleBelow.markFirst {b : Board n} {k : Nat} (h : b.IdleBelow k) :
    b.markFirst.IdleBelow (k + 1) := by
  intro i hi hik
  rw [Board.markFirst]
  split
  next hnone => exact (firstPending?_eq_none_iff b).1 hnone i hi
  next j hj =>
    rw [getElem_channels_markPublished]
    split
    next => rfl
    next hji =>
      -- were the told channel before this one, it would be one of the first `k`
      have hlt : i < j := by
        have hpending := pendingPublish_of_firstPending? hj
        have hkj : k ≤ j := by
          apply Nat.le_of_not_lt
          intro hjk
          rw [h j j.isLt hjk] at hpending
          cases hpending
        omega
      exact pendingPublish_before_firstPending? hj hlt

end Board

theorem Transport.reliable_steady (t : Steady) : Reliable t :=
  ⟨fun _ => True, trivial, fun _ _ =>
    ⟨⟨rfl, trivial⟩, fun _ _ _ => ⟨rfl, trivial⟩, fun _ => ⟨rfl, trivial⟩⟩⟩

namespace Session

variable {n : Nat} {η θ τ : Type} [Transport τ]

theorem mem_appointments_poll {s : Session n η} {now : Instant} {t : τ}
    {a : Subscription.Appointment} (h : a ∈ (s.poll now t).node.plan.appointments) :
    a ∈ s.node.plan.appointments ∧ ¬ a.time ≤ now := by
  have hmeet := Subscription.meet_fst now s.node.root s.node.plan.appointments
    (⟨t, s.calls⟩ : Recorded τ)
  replace h : a ∈ (Subscription.meet now s.node.root s.node.plan.appointments
    (⟨t, s.calls⟩ : Recorded τ)).1 := h
  rw [hmeet, List.mem_filter] at h
  exact ⟨h.1, of_decide_eq_true h.2⟩

/-- Every step of the lamps takes a tick from what remains. -/
theorem toNat_remainingTicks_steps_le {s : Session n η} (h : s.node.hasUniverse = false)
    (events : List (Event θ τ)) (i : Nat) (hi : i < n) :
    (s.steps events).node.board.channels[i].remainingTicks.toNat ≤
      s.node.board.channels[i].remainingTicks.toNat - events.countP Event.isProcess := by
  induction events generalizing s with
  | nil => rw [steps_nil, List.countP_nil, Nat.sub_zero]
  | cons e rest ih =>
      have hquiet : (s.step e).node.hasUniverse = false := (keeps_steps h [e]).quiet
      rw [steps_cons]
      cases hprocess : e.isProcess with
      | true =>
          obtain rfl := Event.eq_process hprocess
          have hchannel : (s.step (.process : Event θ τ)).node.board.channels[i] =
              s.node.board.channels[i].advance := by
            rw [step, board_process_of_quiet h, Board.getElem_channels_advance]
          have hticks := Channel.toNat_remainingTicks_advance_le s.node.board.channels[i]
          have hrest := ih hquiet
          rw [hchannel] at hrest
          rw [List.countP_cons_of_pos hprocess]
          omega
      | false =>
          have hrest := ih hquiet
          rw [((s.reflagged_step e hprocess).channel i hi).remainingTicks] at hrest
          rw [List.countP_cons_of_neg (Bool.not_eq_true _ ▸ hprocess)]
          exact hrest

/-- The lamps have arrived and nothing is about to send them on. -/
structure Arrived (s : Session n η) : Prop where
  quiet : s.node.hasUniverse = false
  still : s.node.board.isConverging = false

theorem arrived_of_processes {s : Session n η} (h : s.node.hasUniverse = false)
    {events : List (Event θ τ)} (hprocesses : 255 ≤ events.countP Event.isProcess) :
    (s.steps events).Arrived := by
  refine ⟨(keeps_steps h events).quiet, (Board.isConverging_eq_false_iff _).2 fun i hi => ?_⟩
  have hle := toNat_remainingTicks_steps_le h events i hi
  have hbyte := s.node.board.channels[i].remainingTicks.toNat_lt
  rw [← Channel.toNat_remainingTicks_eq_zero_iff]
  omega

theorem Arrived.process {s : Session n η} (h : s.Arrived) : s.process.Arrived := by
  refine ⟨s.hasUniverse_process, ?_⟩
  rw [board_process_of_quiet h.quiet]
  exact (Board.reflagged_advance h.still).isConverging h.still

theorem Arrived.poll {s : Session n η} (h : s.Arrived) (now : Instant) (t : τ) :
    (s.poll now t).Arrived :=
  ⟨h.quiet, (s.reflagged_poll now t).isConverging h.still⟩

theorem Arrived.flush {s : Session n η} (h : s.Arrived) : s.flush.Arrived :=
  ⟨h.quiet, s.reflagged_flush.isConverging h.still⟩

theorem Arrived.getElem_channels_process {s : Session n η} (h : s.Arrived) (i : Nat) (hi : i < n) :
    s.process.node.board.channels[i] = { s.node.board.channels[i] with dirty := false } := by
  rw [board_process_of_quiet h.quiet, Board.getElem_channels_advance_of_arrived h.still]

theorem Arrived.changed_process {s : Session n η} (h : s.Arrived) :
    s.process.node.board.changed = s.node.board.changed := by
  rw [board_process_of_quiet h.quiet, Board.changed_advance_of_arrived h.still]

theorem arrived_steps {s : Session n η} (h : s.Arrived) (events : List (Event θ τ)) :
    (s.steps events).Arrived :=
  steps_invariant (fun _ hs => hs.process) (fun _ now t hs => hs.poll now t)
    (fun _ hs => hs.flush) h events

/-- Once the lamps have arrived, a flush is for good. -/
theorem unmarked_of_flush {s : Session n η} (h : s.Arrived) {events : List (Event θ τ)}
    (hflush : .flush ∈ events) : (s.steps events).node.board.changed = false := by
  obtain ⟨first, second, rfl⟩ := List.append_of_mem hflush
  rw [steps_append, steps_cons]
  have harrived := (arrived_steps h first).flush
  have hunmarked := Output.unmarked_flush (s.steps first).node.output (s.steps first).node.board
  have hkept := steps_invariant
    (I := fun s : Session n η => s.Arrived ∧ s.node.board.changed = false)
    (fun s hs => ⟨hs.1.process, hs.1.changed_process.trans hs.2⟩)
    (fun s now (t : τ) hs => ⟨hs.1.poll now t, (s.changed_poll now t).trans hs.2⟩)
    (fun s hs => ⟨hs.1.flush, Output.unmarked_flush s.node.output s.node.board⟩)
    ⟨harrived, hunmarked⟩ second
  exact hkept.2

theorem poll_of_reliable (s : Session n η) (hn : n < UInt64.size) (now : Instant) {t : τ}
    (ht : Transport.Reliable t) :
    (s.poll now t).node.publisher.onlinePending = false ∧
      (s.node.poll now (⟨t, s.calls⟩ : Recorded τ)).published = s.node.board.firstPending? ∧
      (s.poll now t).node.board = s.node.board.markFirst :=
  s.node.publisher.poll_of_reliable s.node.board s.node.settings.root hn
    (Subscription.reliable_meet now s.node.root s.node.plan.appointments (ht.recorded s.calls))

theorem pendingPublish_process {s : Session n η} (h : s.Arrived) (i : Nat) (hi : i < n) :
    s.process.node.board.channels[i].pendingPublish = s.node.board.channels[i].pendingPublish := by
  rw [h.getElem_channels_process]

theorem pendingPublish_flush (s : Session n η) (i : Nat) (hi : i < n) :
    s.flush.node.board.channels[i].pendingPublish = s.node.board.channels[i].pendingPublish := by
  obtain ⟨dirty, hchannel⟩ := s.node.output.getElem_channels_flush s.node.board i hi
  show (s.node.output.flush s.node.board).2.1.channels[i].pendingPublish = _
  rw [hchannel]

/-- Every poll that goes through tells one more channel. -/
theorem idleBelow_steps {s : Session n η} (h : s.Arrived) (hn : n < UInt64.size)
    {events : List (Event θ τ)}
    (hreliable : ∀ now t, .poll now t ∈ events → Transport.Reliable t) {k : Nat}
    (hidle : s.node.board.IdleBelow k) :
    (s.steps events).node.board.IdleBelow (k + events.countP Event.isPoll) := by
  induction events generalizing s k with
  | nil => exact hidle
  | cons e rest ih =>
      have hnext := @ih (s.step e) (arrived_steps h [e])
        (fun now t hmem => hreliable now t (List.mem_cons_of_mem e hmem))
      cases e with
      | poll now t =>
          have ht := hreliable now t List.mem_cons_self
          have htold := hidle.markFirst
          rw [← (s.poll_of_reliable hn now ht).2.2] at htold
          rw [List.countP_cons_of_pos rfl, steps_cons, Nat.add_comm _ 1, ← Nat.add_assoc]
          exact hnext htold
      | process =>
          refine hnext fun i hi hik => ?_
          exact (pendingPublish_process h i hi).trans (hidle i hi hik)
      | flush =>
          refine hnext fun i hi hik => ?_
          exact (s.pendingPublish_flush i hi).trans (hidle i hi hik)
      | _ => exact hnext hidle

/-- Presence is told once and not again. -/
theorem told_of_poll {s : Session n η} (hn : n < UInt64.size) {events : List (Event θ τ)}
    {now : Instant} {t : τ} (hpoll : .poll now t ∈ events) (ht : Transport.Reliable t) :
    (s.steps events).node.publisher.onlinePending = false := by
  obtain ⟨first, second, rfl⟩ := List.append_of_mem hpoll
  rw [steps_append, steps_cons]
  refine steps_invariant (I := fun s : Session n η => s.node.publisher.onlinePending = false)
    (fun s hs => ?_) (fun s now (t : τ) hs => ?_) (fun _ hs => hs)
    ((s.steps first).poll_of_reliable hn now ht).1 second
  · rw [publisher_process]
    exact hs
  · exact (congrArg _ (Publisher.publisher_poll_of_told hs _ _ _)).trans hs

theorem mem_appointments_step {s : Session n η} {e : Event θ τ} {a : Subscription.Appointment}
    (h : a ∈ (s.step e).node.plan.appointments) :
    a ∈ s.node.plan.appointments ∧ ∀ now t, e = .poll now t → ¬ a.time ≤ now := by
  cases e with
  | poll now t =>
      obtain ⟨hmem, hlater⟩ := mem_appointments_poll h
      refine ⟨hmem, fun now' t' heq => ?_⟩
      obtain ⟨rfl, _⟩ := Event.poll.inj heq
      exact hlater
  | process =>
      rw [step, plan_process] at h
      exact ⟨h, nofun⟩
  | _ => exact ⟨h, nofun⟩

/-- An appointment that is left was there before, and its time has not come. -/
theorem mem_appointments_steps {s : Session n η} {events : List (Event θ τ)}
    {a : Subscription.Appointment} (h : a ∈ (s.steps events).node.plan.appointments) :
    a ∈ s.node.plan.appointments ∧ ∀ now t, .poll now t ∈ events → ¬ a.time ≤ now := by
  induction events generalizing s with
  | nil => exact ⟨h, fun _ _ hmem => nomatch hmem⟩
  | cons e rest ih =>
      obtain ⟨hmem, hlater⟩ := ih h
      obtain ⟨hmem, hnow⟩ := mem_appointments_step hmem
      refine ⟨hmem, fun now t hpoll => ?_⟩
      rcases List.mem_cons.1 hpoll with hfirst | hpoll
      · exact hnow now t hfirst.symm
      · exact hlater now t hpoll

/-- Nothing is left to do. -/
structure Resting (s : Session n η) : Prop where
  arrived : s.Arrived
  unmarked : s.node.board.changed = false
  idle : ∀ i (h : i < n), s.node.board.channels[i].pendingPublish = false
  told : s.node.publisher.onlinePending = false
  subscribed : s.node.plan.isPending = false

theorem Resting.process {s : Session n η} (h : s.Resting) : s.process.Resting where
  arrived := h.arrived.process
  unmarked := h.arrived.changed_process.trans h.unmarked
  idle i hi := (pendingPublish_process h.arrived i hi).trans (h.idle i hi)
  told := by
    rw [publisher_process]
    exact h.told
  subscribed := by
    rw [plan_process]
    exact h.subscribed

theorem Resting.flush_eq {s : Session n η} (h : s.Resting) : s.flush = s := by
  rw [flush, Node.flush, Output.flush_of_unchanged _ h.unmarked]
  simp only [Option.map_none, Option.toList_none, List.append_nil]
  rfl

theorem Resting.poll_eq {s : Session n η} (h : s.Resting) (now : Instant) (t : τ) :
    s.poll now t = s := by
  have hfirst := (Board.firstPending?_eq_none_iff s.node.board).2 h.idle
  rw [poll, Node.poll, Subscription.Plan.poll_of_not_isPending h.subscribed,
    Publisher.poll_of_idle h.told hfirst]
  rfl

theorem resting_steps {s : Session n η} (h : s.Resting) (events : List (Event θ τ)) :
    (s.steps events).Resting :=
  steps_invariant (fun _ hs => hs.process) (fun _ now t hs => (hs.poll_eq now t).symm ▸ hs)
    (fun _ hs => hs.flush_eq.symm ▸ hs) h events

/-- A flush, and as many polls as there are channels, at least one, the last of them when all
appointments are due. -/
theorem resting_of_arrived {s : Session n η} (h : s.Arrived) (hn : n < UInt64.size)
    {events : List (Event θ τ)}
    (hreliable : ∀ now t, .poll now t ∈ events → Transport.Reliable t) (hflush : .flush ∈ events)
    (hpolls : max n 1 ≤ events.countP Event.isPoll)
    (hdue : ∀ a ∈ s.node.plan.appointments, ∃ now t, .poll now t ∈ events ∧ a.time ≤ now) :
    (s.steps events).Resting where
  arrived := arrived_steps h events
  unmarked := unmarked_of_flush h hflush
  idle i hi := by
    have hnone : s.node.board.IdleBelow 0 := fun i _ hlt => absurd hlt (Nat.not_lt_zero i)
    exact idleBelow_steps h hn hreliable hnone i hi (by omega)
  told := by
    obtain ⟨e, hmem, he⟩ := List.countP_pos_iff.1 (show 0 < events.countP Event.isPoll by omega)
    obtain ⟨now, t, rfl⟩ := Event.eq_poll he
    exact told_of_poll hn hmem (hreliable now t hmem)
  subscribed := by
    have hnone : (s.steps events).node.plan.appointments = [] := by
      refine List.eq_nil_iff_forall_not_mem.2 fun a ha => ?_
      obtain ⟨hmem, hlater⟩ := mem_appointments_steps ha
      obtain ⟨now, t, hpoll, htime⟩ := hdue a hmem
      exact hlater now t hpoll htime
    rw [Subscription.Plan.isPending, hnone]
    rfl

theorem Displays.steps {s : Session n η} (h : s.Displays) (events : List (Event θ τ)) :
    (s.steps events).Displays :=
  steps_invariant (fun _ hs => hs.process) (fun _ now t hs => hs.poll now t)
    (fun _ hs => hs.flush) h events

theorem Resting.getElem_shown {s : Session n η} (h : s.Resting) (hs : s.Displays) (i : Nat)
    (hi : i < n) : s.node.output.shown[i] = s.node.board.channels[i].goal.duties := by
  have harrived := (Board.isConverging_eq_false_iff _).1 h.arrived.still i hi
  rw [← Channel.duties_of_arrived harrived, (hs.shows h.unmarked).1, Board.render,
    Vector.getElem_map]

/-- A node that is left alone settles. After 255 steps of the lamps every channel shows its target,
and is set to what it was set to before. After a flush and as many polls of a broker that takes
everything as there are channels, at least one, the last of them when all appointments are due, the
outputs show the targets of the channels that are on, and there is nothing left to tell and nothing
to subscribe to. And so it stays: a step of the lamps does no more than clear dirty flags, and a
flush or a poll changes nothing at all, so that no frame is written and no request is made. The
number of channels is taken to fit in a machine word, as do the numbers in the topics. -/
theorem settles [HueSource η] [HueSource θ] (settings : Settings) (options : Options) (hues : η)
    (past : List (Event θ τ)) (s : Session n η) (hn : n < UInt64.size)
    (hrun : (powerUp n settings options hues).run? past = some s)
    (hquiet : s.node.hasUniverse = false) (first second : List (Event θ τ))
    (hfirst : ∀ e ∈ first, e.isStep = true) (hsecond : ∀ e ∈ second, e.isStep = true)
    (hprocesses : 255 ≤ first.countP Event.isProcess)
    (hreliable : ∀ now t, .poll now t ∈ second → Transport.Reliable t) (hflush : .flush ∈ second)
    (hpolls : max n 1 ≤ second.countP Event.isPoll) :
    ∃ s₁, s.run? first = some s₁ ∧
      (∀ i (h : i < n), s₁.node.board.channels[i].current = s₁.node.board.channels[i].target ∧
        s₁.node.board.channels[i].goal = s.node.board.channels[i].goal) ∧
      s₁.node.board.strobe = s.node.board.strobe ∧
      ((∀ a ∈ s₁.node.plan.appointments, ∃ now t, .poll now t ∈ second ∧ a.time ≤ now) →
        ∃ s₂, s₁.run? second = some s₂ ∧
          (∀ i (h : i < n), s₂.node.output.shown[i] = s.node.board.channels[i].goal.duties ∧
            s₂.node.board.channels[i].pendingPublish = false) ∧
          s₂.node.publisher.onlinePending = false ∧ s₂.node.plan.isPending = false ∧
          ∀ third : List (Event θ τ), (∀ e ∈ third, e.isStep = true) →
            ∃ s₃, s₂.run? third = some s₃ ∧
              (∀ i (h : i < n), s₃.process.node.board.channels[i] =
                { s₃.node.board.channels[i] with dirty := false }) ∧
              s₃.process.node.board.changed = false ∧ s₃.flush = s₃ ∧
              ∀ (now : Instant) (t : τ), s₃.poll now t = s₃) := by
  have hdisplays : s.Displays :=
    run?_invariant (fun _ _ _ _ h hstep => h.step hstep) (along_of_forall (fun _ _ => trivial) _ _)
      (displays_powerUp settings options hues) hrun
  have hkeeps := keeps_steps hquiet first
  have harrived := arrived_of_processes hquiet hprocesses
  refine ⟨s.steps first, run?_of_isStep hfirst s, fun i h => ⟨?_, hkeeps.goal i h⟩, hkeeps.strobe,
    fun hdue => ?_⟩
  · exact (Channel.isConverging_eq_false_iff _).1
      ((Board.isConverging_eq_false_iff _).1 harrived.still i h)
  have hresting := resting_of_arrived harrived hn hreliable hflush hpolls hdue
  have hkeeps' := keeps_steps harrived.quiet second
  refine ⟨_, run?_of_isStep hsecond _, fun i h => ⟨?_, hresting.idle i h⟩, hresting.told,
    hresting.subscribed, fun third hthird => ?_⟩
  · rw [hresting.getElem_shown ((hdisplays.steps first).steps second) i h, hkeeps'.goal i h,
      hkeeps.goal i h]
  have hrest := resting_steps hresting third
  exact ⟨_, run?_of_isStep hthird _, hrest.arrived.getElem_channels_process,
    hrest.process.unmarked, hrest.flush_eq, hrest.poll_eq⟩

theorem settles_pink :
    ∃ s s₁ s₂ : Session 1 SplitMix,
      (powerUp 1 Settings.blank Options.standard ⟨0⟩).run?
        ([.connack ⟨0⟩, .receive "/set/1/mode" "1".toUTF8 false,
          .receive "/set/1/color" "ff0080".toUTF8 false] : List (Event SplitMix Steady)) = some s ∧
      s.run? (List.replicate 255 (.process : Event SplitMix Steady)) = some s₁ ∧
      s₁.run? ([.flush, .poll ⟨20000000⟩ ⟨⟩] : List (Event SplitMix Steady)) = some s₂ ∧
      (∀ i (h : i < 1), s₁.node.board.channels[i].current = ⟨255, 0, 128⟩ ∧
        s₂.node.output.shown[i] = ⟨4096, 0, 761⟩) ∧
      s₂.node.plan.isPending = false := by
  obtain ⟨s, hs⟩ : ∃ s, (powerUp 1 Settings.blank Options.standard (⟨0⟩ : SplitMix)).run?
      ([.connack ⟨0⟩, .receive "/set/1/mode" "1".toUTF8 false,
        .receive "/set/1/color" "ff0080".toUTF8 false] : List (Event SplitMix Steady)) = some s :=
    ⟨_, rfl⟩
  have hset : s.node.hasUniverse = false ∧
      (∀ i (h : i < 1), s.node.board.channels[i].goal =
        ⟨⟨255, 0, 128⟩, ⟨255, 0, 128⟩, 255, .on, .fade⟩) ∧
      ∀ a ∈ s.node.plan.appointments, a.time ≤ ⟨20000000⟩ := by
    obtain rfl := Option.some.inj hs
    exact ⟨rfl, by decide +kernel, by decide +kernel⟩
  obtain ⟨hquiet, hpink, hdue⟩ := hset
  have hfirst : ∀ e ∈ List.replicate 255 (.process : Event SplitMix Steady), e.isStep = true := by
    intro e he
    rw [List.eq_of_mem_replicate he]
    rfl
  obtain ⟨s₁, hs₁, harrived, _, hrest⟩ := settles Settings.blank Options.standard
    (⟨0⟩ : SplitMix) _ s (by decide) hs hquiet (List.replicate 255 .process)
    [.flush, .poll ⟨20000000⟩ ⟨⟩] hfirst (by decide)
    (by rw [List.countP_replicate]; decide) (fun _ _ _ => Transport.reliable_steady _)
    List.mem_cons_self (by decide)
  obtain ⟨s₂, hs₂, hshown, _, hsubscribed, _⟩ := hrest fun a ha => by
    obtain rfl := Option.some.inj ((run?_of_isStep hfirst s).symm.trans hs₁)
    exact ⟨⟨20000000⟩, ⟨⟩, by simp, hdue a (mem_appointments_steps ha).1⟩
  refine ⟨s, s₁, s₂, hs, hs₁, hs₂, fun i h => ⟨?_, ?_⟩, hsubscribed⟩
  · obtain ⟨hcurrent, hgoal⟩ := harrived i h
    exact hcurrent.trans (congrArg Goal.target (hgoal.trans (hpink i h)))
  · exact ((hshown i h).1.trans (congrArg Goal.duties (hpink i h))).trans (by decide +kernel)

end Session

end Luminaire
