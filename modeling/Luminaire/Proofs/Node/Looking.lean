import Luminaire.Proofs.Broker.Subscribing
import Luminaire.Proofs.Node.Session

/-!
# Looking before calling

A poll looks at the connection once for each group whose time has come, and once before it tells
anything. Between two looks there are up to six calls, and nobody asks whether the connection is
still there. So a node calls without a connection if its transport loses the connection by a call
that it takes. If it does not, every call of a poll is made on a connection that stands.
-/

namespace Luminaire

namespace Publisher

variable {n : Nat} {τ : Type} [Transport τ]

theorem snd_send_ok (topic : Topic) (payload : String) (t : τ) :
    (send (.ok topic) payload t).2 = (Transport.publish t topic payload retain).2 := by
  rw [send]
  split <;> simp [*]

theorem snd_pollOnline (p : Publisher) (root : String) (t : τ) :
    (p.pollOnline root t).2 = if p.onlinePending then (sendOnline root t).2 else t := by
  rw [pollOnline]
  split
  · split <;> simp [*]
  · rfl

theorem snd_pollChannel (b : Board n) (root : String) (t : τ) :
    (pollChannel b root t).2.2 =
      match b.firstPending? with
      | none => t
      | some i => (sendChannel root (i + 1) (b.channels.get i) t).2 := by
  rw [pollChannel]
  cases b.firstPending? with
  | none => rfl
  | some i =>
      simp only
      split
      next t' hsent => exact (congrArg Prod.snd hsent).symm
      next e t' hsent => exact (congrArg Prod.snd hsent).symm

theorem made_send (topic : Except CapacityError Topic) (payload : String) (w : Watched τ) :
    ∃ calls, Watched.Made calls w (send topic payload w).2 := by
  cases topic with
  | error e => exact ⟨[], .nil w⟩
  | ok topic =>
      rw [snd_send_ok]
      exact ⟨_, .publish topic payload retain (.nil _)⟩

theorem made_sendAttributes (root : String) (number : Nat) (c : Channel) (as : List Attribute)
    (w : Watched τ) : ∃ calls, Watched.Made calls w (sendAttributes root number c as w).2 := by
  induction as generalizing w with
  | nil => exact ⟨[], .nil w⟩
  | cons a rest ih =>
      obtain ⟨calls, hmade⟩ := made_send (Topic.state root number a.word) (a.report c) w
      rw [sendAttributes_cons]
      split
      next w' hsent =>
        rw [hsent] at hmade
        obtain ⟨calls', hmade'⟩ := ih w'
        exact ⟨calls ++ calls', hmade.append hmade'⟩
      next e w' hsent =>
        rw [hsent] at hmade
        exact ⟨calls, hmade⟩

theorem made_pollOnline (p : Publisher) (root : String) (w : Watched τ) :
    ∃ calls, Watched.Made calls w (p.pollOnline root w).2 := by
  rw [snd_pollOnline]
  split
  · exact made_send (Topic.will root) onlineMessage w
  · exact ⟨[], .nil w⟩

theorem made_pollChannel (b : Board n) (root : String) (w : Watched τ) :
    ∃ calls, Watched.Made calls w (pollChannel b root w).2.2 := by
  rw [snd_pollChannel]
  cases b.firstPending? with
  | none => exact ⟨[], .nil w⟩
  | some i => exact made_sendAttributes root (i + 1) b.channels[i] Attribute.all w

/-- Telling is one stage. -/
theorem leads_poll (p : Publisher) (b : Board n) (root : String) (w : Watched τ) :
    ∃ s : Stage, s.Leads w (p.poll b root w).transport := by
  rcases hlook : Transport.isConnected w with ⟨connected, w'⟩
  cases connected with
  | false =>
      refine ⟨⟨false, []⟩, ⟨?_, ?_, fun _ => rfl⟩⟩
      · rw [hlook]
      · rw [poll, hlook]
        exact .nil w'
  | true =>
      obtain ⟨online, honline⟩ := p.made_pollOnline root w'
      obtain ⟨channel, hchannel⟩ := made_pollChannel b root (p.pollOnline root w').2
      refine ⟨⟨true, online ++ channel⟩, ⟨?_, ?_, ?_⟩⟩
      · rw [hlook]
      · rw [poll, hlook]
        exact honline.append hchannel
      · exact fun h => nomatch h

end Publisher

namespace Node

variable {n : Nat} {η τ : Type} [Transport τ]

/-- A poll is made of stages: one for each appointment whose time has come, in which all patterns of
its group are requested, and one more, in which the node tells. A look that shows no connection is
followed by no call. If a look does not end the connection that it shows, the first call after it is
made on a connection that stands, and so are the others if no call ends the connection either. -/
theorem calls_follow_looks (node : Node n η) (now : Instant) (t : τ) :
    ∃ (groups : List Stage) (telling : Stage),
      (node.poll now (⟨t, []⟩ : Watched τ)).transport.contacts =
        (groups ++ [telling]).flatMap Stage.contacts ∧
      List.Forall₂ (fun a s => s.Makes (Subscription.requests node.root a.group.subjects))
        (node.plan.appointments.filter (·.time ≤ now)) groups ∧
      ∀ s ∈ groups ++ [telling], s.Guarded τ := by
  obtain ⟨groups, hgroups, hturns, _⟩ :=
    Subscription.leads_meet now node.root node.plan.appointments (⟨t, []⟩ : Watched τ)
  obtain ⟨telling, htelling⟩ := node.publisher.leads_poll node.board node.root
    (node.plan.poll now node.root (⟨t, []⟩ : Watched τ)).transport
  have hlead : Stage.Lead (groups ++ [telling]) (⟨t, []⟩ : Watched τ)
      (node.poll now (⟨t, []⟩ : Watched τ)).transport :=
    hgroups.append (.cons htelling (.nil _))
  exact ⟨groups, telling, hlead.contacts_eq, hturns, hlead.guarded⟩

end Node

namespace Session

/-- The report of a channel goes on after the connection was lost by its first message. -/
theorem calls_unconnected :
    ¬ ∀ (τ : Type) [Transport τ] (events : List (Event SplitMix τ)) (s : Session 1 SplitMix),
      (powerUp 1 Settings.blank Options.standard ⟨0⟩).run? events = some s →
      ∀ (now : Instant) (t : τ),
        ∀ c ∈ (s.node.poll now (⟨t, []⟩ : Recorded τ)).transport.calls, c.connected = true := by
  intro hall
  have hconnected := hall Fragile [.receive "/set/1/switch" "1".toUTF8 false] _ rfl Instant.zero ⟨true⟩
  exact absurd hconnected (by decide +kernel)

end Session

end Luminaire
