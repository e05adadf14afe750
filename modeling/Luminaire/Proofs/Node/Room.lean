import Luminaire.Node.Connection
import Luminaire.Proofs.Broker.Round
import Luminaire.Proofs.Node.Isolation
import Luminaire.Proofs.Node.Looking

/-!
# There is room for every topic

The root of a node is cut to 31 bytes when it is set. With the longest name and a channel number of
twenty digits its topics have at most 63 bytes, one less than there is room for, and the patterns
that it subscribes to are shorter still. So no message and no subscription is ever lost for want of
a topic. What a node fails to send was refused by its transport, and the refusal is the last of the
calls that it made for it (`Publisher.FailsByRefusal`).
-/

namespace Luminaire

namespace Publisher

variable {n : Nat} {τ : Type} [Transport τ]

/-- If something was not sent, the transport took some calls for it and refused the one after them,
and that is the error. -/
def FailsByRefusal (r : Recorded τ) (sent : Except PublishError Unit × Recorded τ) : Prop :=
  ∀ e, sent.1 = .error e → ∃ (taken : List Call) (call : Call) (refusal : TransportError),
    sent.2.calls = r.calls ++ (taken ++ [call]) ∧ (∀ c ∈ taken, c.accepted = true) ∧
      call.outcome = .error refusal ∧ e = .transport refusal

theorem failsByRefusal_send {topic : Except CapacityError Topic}
    (htopic : ∃ fitting, topic = .ok fitting) (payload : String) (r : Recorded τ) :
    FailsByRefusal r (send topic payload r) := by
  obtain ⟨fitting, rfl⟩ := htopic
  intro e he
  rw [snd_send_ok]
  rw [send] at he
  split at he
  next => cases he
  next refusal r' hpublish =>
    exact ⟨[], ⟨.publish fitting payload retain, (Transport.isConnected r.transport).1,
      (Transport.publish r.transport fitting payload retain).1⟩, refusal, rfl, by simp,
      congrArg Prod.fst hpublish, (Except.error.inj he).symm⟩

theorem failsByRefusal_sendAttributes {root : String} {number : Nat}
    (htopics : ∀ a : Attribute, ∃ topic, Topic.state root number a.word = .ok topic) (c : Channel)
    (as : List Attribute) (r : Recorded τ) :
    FailsByRefusal r (sendAttributes root number c as r) := by
  induction as generalizing r with
  | nil => exact fun e he => nomatch he
  | cons a rest ih =>
      have hsend := failsByRefusal_send (htopics a) (a.report c) r
      obtain ⟨topic, htopic⟩ := htopics a
      obtain ⟨call, -, hcalls, hsent⟩ := exists_call_send topic (a.report c) r
      rw [← htopic] at hcalls hsent
      rw [sendAttributes_cons]
      split
      next r' hok =>
        rw [hok] at hcalls hsent
        intro e he
        obtain ⟨taken, last, refusal, hlater, htaken, hrefused⟩ := ih r' e he
        refine ⟨call :: taken, last, refusal, ?_, List.forall_mem_cons.2 ⟨hsent.symm, htaken⟩,
          hrefused⟩
        rw [hlater, hcalls, List.append_assoc]
        rfl
      next e' r' herror =>
        rw [herror] at hsend
        exact hsend

/-- The round about a channel, whatever channels there are. -/
theorem failsByRefusal_sendChannel (root : Text Settings.rootCapacity) {number : Nat}
    (hnumber : number < UInt64.size) (c : Channel) (r : Recorded τ) :
    FailsByRefusal r (sendChannel root.content number c r) :=
  failsByRefusal_sendAttributes (Topic.exists_state root hnumber) c Attribute.all r

theorem failsByRefusal_sendOnline (root : Text Settings.rootCapacity) (r : Recorded τ) :
    FailsByRefusal r (sendOnline root.content r) :=
  failsByRefusal_send (Topic.exists_will root) onlineMessage r

/-- One of the calls that lead from the first record to the second was refused. -/
def Refused (r r' : Recorded τ) : Prop :=
  ∃ calls : List Call, r'.calls = r.calls ++ calls ∧ ∃ c ∈ calls, c.accepted = false

omit [Transport τ] in
theorem FailsByRefusal.refused {r : Recorded τ} {sent : Except PublishError Unit × Recorded τ}
    (h : FailsByRefusal r sent) {e : PublishError} (he : sent.1 = .error e) :
    Refused r sent.2 := by
  obtain ⟨taken, call, refusal, hcalls, -, houtcome, -⟩ := h e he
  refine ⟨_, hcalls, call, by simp, ?_⟩
  rw [Call.accepted, houtcome]
  rfl

theorem refused_of_pollOnline (root : Text Settings.rootCapacity) {p : Publisher} {r : Recorded τ}
    (h : (p.pollOnline root.content r).1.onlinePending = true) :
    Refused r (p.pollOnline root.content r).2 := by
  rw [pollOnline] at h
  rw [snd_pollOnline]
  split at h
  next hdue =>
    rw [if_pos hdue]
    split at h
    next => cases h
    next e r' hsent =>
      exact (failsByRefusal_sendOnline root r).refused (congrArg Prod.fst hsent)
  next htold => exact absurd h htold

theorem refused_of_pollChannel (root : Text Settings.rootCapacity) {b : Board n}
    (hn : n < UInt64.size) {r : Recorded τ}
    (h : (pollChannel b root.content r).1 ≠ b.firstPending?) :
    Refused r (pollChannel b root.content r).2.2 := by
  cases hfirst : b.firstPending? with
  | none =>
      refine absurd ?_ h
      rw [pollChannel, hfirst]
  | some i =>
      have hfails := failsByRefusal_sendChannel root
        (Nat.lt_of_le_of_lt (Nat.succ_le_of_lt i.isLt) hn) (b.channels.get i) r
      rw [published_pollChannel hfirst, hfirst] at h
      cases hsent : (sendChannel root.content (i + 1) (b.channels.get i) r).1 with
      | ok _ =>
          rw [hsent] at h
          exact absurd rfl h
      | error e =>
          have hround := hfails.refused hsent
          rw [snd_pollChannel, hfirst]
          exact hround

/-- A poll on a connection that leaves presence due, or does not tell the channel whose turn it is,
was refused a call. -/
theorem refused_of_poll (root : Text Settings.rootCapacity) {p : Publisher} {b : Board n}
    (hn : n < UInt64.size) {r : Recorded τ}
    (hlook : (Transport.isConnected r.transport).1 = true)
    (h : (p.poll b root.content r).publisher.onlinePending = true ∨
      (p.poll b root.content r).published ≠ b.firstPending?) :
    Refused r (p.poll b root.content r).transport := by
  have hconnected : (Transport.isConnected r).1 = true := hlook
  rw [poll_of_connected hconnected] at h ⊢
  rcases h with hdue | huntold
  · obtain ⟨calls, hcalls, c, hc, hrefused⟩ := refused_of_pollOnline root hdue
    obtain ⟨later, hlater, -⟩ := exists_calls_pollChannel b root.content
      (p.pollOnline root.content (Transport.isConnected r).2).2
    refine ⟨calls ++ later, ?_, c, List.mem_append_left later hc, hrefused⟩
    rw [hlater, hcalls, List.append_assoc]
    rfl
  · obtain ⟨online, honline, -⟩ :=
      p.exists_calls_pollOnline root.content (Transport.isConnected r).2
    obtain ⟨calls, hcalls, c, hc, hrefused⟩ := refused_of_pollChannel root hn huntold
    refine ⟨online ++ calls, ?_, c, List.mem_append_right online hc, hrefused⟩
    rw [hcalls, honline, List.append_assoc]
    rfl

end Publisher

namespace Subscription

variable {τ : Type} [Transport τ]

/-- Each group whose time has come has its turn with all of its patterns. -/
theorem exists_stages_of_patterns (root : Text Settings.rootCapacity) (p : Plan) (now : Instant)
    (t : τ) :
    ∃ stages : List Stage,
      (p.poll now root.content (⟨t, []⟩ : Watched τ)).transport.contacts =
        stages.flatMap Stage.contacts ∧
      List.Forall₂
        (fun a s => s.Makes (a.group.subjects.map fun subject => .subscribe (subject.pattern root)))
        (p.appointments.filter (·.time ≤ now)) stages := by
  obtain ⟨stages, -, hcontacts, hturns⟩ := p.exists_stages root.content now t
  simp only [requests_of_fits (Subject.filter_eq_ok_pattern root)] at hturns
  exact ⟨stages, hcontacts, hturns⟩

end Subscription

namespace Connection

/-- Only the name of the client can be too long. -/
theorem ofSettings_eq_error_iff (s : Settings) (hostname : String) (mac : Vector UInt8 6)
    (e : CapacityError) :
    ofSettings s hostname mac = .error e ↔
      clientIdCapacity < (clientName hostname mac).utf8ByteSize := by
  obtain ⟨topic, htopic⟩ := Topic.exists_will s.root
  rw [← Text.ofString?_eq_none_iff, ofSettings, htopic]
  cases Text.ofString? (clientName hostname mac) <;> simp

end Connection

namespace Node

variable {n : Nat} {η : Type}

/-- Whatever the node does not get sent or subscribed to was refused by its transport. -/
structure FailsOnlyByRefusal (τ : Type) [Transport τ] (node : Node n η) : Prop where
  subscriptions : ∀ (now : Instant) (t : τ), ∃ stages : List Stage,
    (node.plan.poll now node.root (⟨t, []⟩ : Watched τ)).transport.contacts =
      stages.flatMap Stage.contacts ∧
    List.Forall₂
      (fun a s => s.Makes
        (a.group.subjects.map fun subject => .subscribe (subject.pattern node.settings.root)))
      (node.plan.appointments.filter (·.time ≤ now)) stages
  online : ∀ r : Recorded τ, Publisher.FailsByRefusal r (Publisher.sendOnline node.root r)
  channel : ∀ (i : Fin n) (r : Recorded τ), Publisher.FailsByRefusal r
    (Publisher.sendChannel node.root (i + 1) (node.board.channels.get i) r)
  poll : ∀ r : Recorded τ, (Transport.isConnected r.transport).1 = true →
    let round := node.publisher.poll node.board node.root r
    round.publisher.onlinePending = true ∨ round.published ≠ node.board.firstPending? →
      Publisher.Refused r round.transport

theorem failsOnlyByRefusal {τ : Type} [Transport τ] (node : Node n η) (hn : n < UInt64.size) :
    node.FailsOnlyByRefusal τ where
  subscriptions now t := Subscription.exists_stages_of_patterns node.settings.root node.plan now t
  online r := Publisher.failsByRefusal_sendOnline node.settings.root r
  channel i r := Publisher.failsByRefusal_sendChannel node.settings.root
    (Nat.lt_of_le_of_lt (Nat.succ_le_of_lt i.isLt) hn) (node.board.channels.get i) r
  poll _ hlook h := Publisher.refused_of_poll node.settings.root hn hlook h

end Node

namespace Session

variable {n : Nat} {η θ τ : Type} [HueSource η] [HueSource θ] [Transport τ]

theorem settings_run? {s s' : Session n η} {events : List (Event θ τ)}
    (h : s.run? events = some s') : s'.node.settings = s.node.settings :=
  run?_invariant (P := fun _ _ => True) (I := fun t => t.node.settings = s.node.settings)
    (fun _ _ _ _ hs hstep => (settings_step? hstep).trans hs)
    (along_of_forall (fun _ _ => trivial) s events) rfl h

/-- Whatever strings its settings were made of, a node has a topic for each value of each channel that
a word can count, a pattern for each subject that it subscribes to, and a topic for its presence; so a
connection fails for the name of the client and for nothing else. In no run does a node lose a
message or a subscription for want of a topic: each group that has its turn asks for all of its
patterns, and a message or a round about a channel fails only because the transport refused the last
of its calls, which is then the error. This is so for a poll that comes alone, and for one that
follows the step of the lamps in a tick. -/
theorem topics_always_fit (settings : Settings) :
    (∀ number < UInt64.size, ∀ a : Attribute,
      ∃ topic, Topic.state settings.root.content number a.word = .ok topic) ∧
    (∀ g ∈ Subscription.groups, ∀ subject ∈ g.subjects,
      ∃ filter, subject.filter settings.root.content = .ok filter) ∧
    (∀ k : Kind, ∃ filter, Topic.commandFilter settings.root.content k.word = .ok filter) ∧
    (∃ topic, Topic.strobe settings.root.content = .ok topic) ∧
    (∃ topic, Topic.will settings.root.content = .ok topic) ∧
    (∀ hostname mac e, Connection.ofSettings settings hostname mac = .error e ↔
      17 < (Connection.clientName hostname mac).utf8ByteSize) ∧
    ∀ (options : Options) (hues : η) (events : List (Event θ τ)) (s : Session n η),
      n < UInt64.size → (powerUp n settings options hues).run? events = some s →
      s.node.settings = settings ∧ s.node.FailsOnlyByRefusal τ ∧
      ∀ now, (s.lit now).node.FailsOnlyByRefusal τ := by
  have hfilter := Subject.filter_eq_ok_pattern settings.root
  exact ⟨fun _ hnumber => Topic.exists_state settings.root hnumber,
    fun _ _ subject _ => ⟨_, hfilter subject⟩, fun k => ⟨_, hfilter (.kind k)⟩,
    ⟨_, hfilter .strobe⟩, Topic.exists_will settings.root,
    Connection.ofSettings_eq_error_iff settings,
    fun _ _ _ s hn hrun => ⟨settings_run? hrun, s.node.failsOnlyByRefusal hn,
      fun now => (s.lit now).node.failsOnlyByRefusal hn⟩⟩

/-- A root that is cut within a letter of two bytes, the last channel number, and a transport that
refuses the fourth message about a channel. -/
theorem topics_always_fit_umlauts :
    let settings := (Settings.create #v[192, 168, 1, 2] "hall").setRoot "häääääääääääääääääää"
    settings.root.content.utf8ByteSize = 31 ∧
      (∃ topic, Topic.state settings.root.content 18446744073709551615 "bright" = .ok topic ∧
        topic.content.utf8ByteSize = 63) ∧
      ∃ s : Session 1 SplitMix,
        (powerUp 1 settings Options.standard ⟨0⟩).run?
          [(.connack Instant.zero : Event SplitMix Crowded)] = some s ∧
        ∃ (taken : List Call) (call : Call),
          (Publisher.sendChannel s.node.root 1 (s.node.board.channels.get 0)
            (⟨⟨3⟩, []⟩ : Recorded Crowded)).2.calls = taken ++ [call] ∧
          (∀ c ∈ taken, c.accepted = true) ∧ call.accepted = false := by
  intro settings
  obtain ⟨hstate, -, -, -, -, -, hruns⟩ :=
    topics_always_fit (n := 1) (η := SplitMix) (θ := SplitMix) (τ := Crowded) settings
  obtain ⟨topic, htopic⟩ := hstate 18446744073709551615 (by decide) .brightness
  refine ⟨by decide +kernel, ⟨topic, htopic, ?_⟩, _, rfl, ?_⟩
  · rw [← (Topic.build_eq_ok_iff _ _).1 htopic]
    decide +kernel
  · obtain ⟨-, hfails, -⟩ := hruns Options.standard ⟨0⟩ [.connack Instant.zero] _ (by decide) rfl
    obtain ⟨taken, call, refusal, hcalls, htaken, houtcome, -⟩ :=
      hfails.channel 0 (⟨⟨3⟩, []⟩ : Recorded Crowded) _ rfl
    refine ⟨taken, call, hcalls, htaken, ?_⟩
    rw [Call.accepted, houtcome]
    rfl

end Session

end Luminaire
