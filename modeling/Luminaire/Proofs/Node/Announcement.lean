import Luminaire.Proofs.Broker.Round
import Luminaire.Proofs.Broker.Store
import Luminaire.Proofs.Node.Step

/-!
# Observers know the board

Observers read the state of the channels from the broker. A channel without the pending flag
should be known there: each of its attributes is kept as it is, or nothing was ever said about it
and it still looks as after power-up. One flag stands for five messages, any of which may be
refused, so what carries the run is `Store.Follows`: it says nothing about a pending channel,
whose entries may be old, new or mixed.

A step from one board to the next leaves a store that follows if every channel `Announces` what
the step did to it. A poll changes the store, but only under the topics of the channel it tells,
and that one was pending. A universe is the one thing that can change a portrait in silence, by
its mode slots; `Session.KeepsModes` excludes it.
-/

namespace Luminaire

theorem Attribute.report_congr {c c' : Channel} (h : c'.portrait = c.portrait) (a : Attribute) :
    a.report c' = a.report c := by
  obtain ⟨hcurrent, hbase, hstatus, hbrightness, hmode⟩ := Portrait.mk.inj h
  cases a with
  | color => exact congrArg Color.toNotation hcurrent
  | baseColor => exact congrArg Color.toNotation hbase
  | status => exact congrArg (fun s : Status => Decimal.writeByte s.digit) hstatus
  | brightness => exact congrArg Decimal.writeByte hbrightness
  | mode => exact congrArg (fun m : FadeMode => Decimal.writeByte m.digit) hmode

theorem Channel.mem_messages_iff (c : Channel) (message : String × String) :
    message ∈ c.messages ↔ ∃ a : Attribute, (a.word, a.report c) = message := by
  have hmessages : c.messages = Attribute.all.map fun a => (a.word, a.report c) := rfl
  rw [hmessages, List.mem_map]
  exact ⟨fun ⟨a, _, h⟩ => ⟨a, h⟩, fun ⟨a, h⟩ => ⟨a, a.mem_all, h⟩⟩

theorem Channel.announces_advance (c : Channel) : c.Announces c.advance := by
  cases h : c.isConverging with
  | true =>
      rw [advance_of_converging h]
      exact Or.inl rfl
  | false =>
      rw [advance_of_arrived h]
      exact Or.inr ⟨rfl, rfl⟩

namespace Store

variable {n : Nat} {store store' : Store} {root : String}

/-- The channel is known: as it is, or as one that was never spoken of and never changed. -/
def Knows (store : Store) (root : String) (number : Nat) (c : Channel) : Prop :=
  c.portrait = Channel.powerUp.portrait ∧ store.Silent root number ∨ store.Tells root number c

theorem Tells.congr {number : Nat} {c c' : Channel} (h : store.Tells root number c)
    (hportrait : c'.portrait = c.portrait) : store.Tells root number c' := by
  intro a
  obtain ⟨t, htopic, hkept⟩ := h a
  exact ⟨t, htopic, hkept.trans (congrArg some (Attribute.report_congr hportrait a).symm)⟩

theorem Knows.congr {number : Nat} {c c' : Channel} (h : store.Knows root number c)
    (hportrait : c'.portrait = c.portrait) : store.Knows root number c' := by
  rcases h with ⟨hfresh, hsilent⟩ | htells
  · exact Or.inl ⟨hportrait.trans hfresh, hsilent⟩
  · exact Or.inr (htells.congr hportrait)

theorem Knows.of_untouched {number : Nat} {c : Channel} (h : store.Knows root number c)
    (hsame : ∀ (a : Attribute) (t : Topic), Topic.state root number a.word = .ok t →
      store' t = store t) : store'.Knows root number c := by
  rcases h with ⟨hfresh, hsilent⟩ | htells
  · exact Or.inl ⟨hfresh, fun a t htopic => (hsame a t htopic).trans (hsilent a t htopic)⟩
  · refine Or.inr fun a => ?_
    obtain ⟨t, htopic, hkept⟩ := htells a
    exact ⟨t, htopic, (hsame a t htopic).trans hkept⟩

theorem Silent.eq_none {number : Nat} (h : store.Silent root number) (c : Channel) :
    ∀ message ∈ c.messages, ∀ t : Topic,
      t.content = Topic.stateText root number message.1 → store t = none := by
  intro message hmessage t ht
  obtain ⟨a, rfl⟩ := (c.mem_messages_iff message).1 hmessage
  exact h a t ((Topic.state_eq_ok_iff root number a.word t).2 ht)

theorem Tells.eq_some {number : Nat} {c : Channel} (h : store.Tells root number c) :
    ∀ message ∈ c.messages, ∃ t : Topic,
      t.content = Topic.stateText root number message.1 ∧ store t = some message.2 := by
  intro message hmessage
  obtain ⟨a, rfl⟩ := (c.mem_messages_iff message).1 hmessage
  obtain ⟨t, htopic, hkept⟩ := h a
  exact ⟨t, (Topic.state_eq_ok_iff root number a.word t).1 htopic, hkept⟩

/-- Every channel that has nothing to tell is known. -/
def Follows (store : Store) (root : String) (b : Board n) : Prop :=
  ∀ i (h : i < n), b.channels[i].pendingPublish = false → store.Knows root (i + 1) b.channels[i]

theorem follows_powerUp (root : String) : empty.Follows root (Board.powerUp n) := by
  intro i hi _
  refine Or.inl ⟨?_, fun _ _ _ => rfl⟩
  rw [Board.powerUp, Vector.getElem_replicate]

theorem Follows.of_announces {b b' : Board n} (h : store.Follows root b)
    (hannounces : ∀ i (h : i < n), b.channels[i].Announces b'.channels[i]) :
    store.Follows root b' := by
  intro i hi hidle
  obtain ⟨hidle', hportrait⟩ := (hannounces i hi).portrait_eq hidle
  exact (h i hi hidle').congr hportrait

end Store

namespace Publisher

variable {n : Nat} {τ : Type} [Transport τ]

theorem store_poll_of_ne (p : Publisher) {b : Board n} {root : String} (r : Recorded τ) {i : Nat}
    (h : ∀ j, b.firstPending? = some j → (j : Nat) ≠ i) (a : Attribute) (t : Topic)
    (htopic : Topic.state root (i + 1) a.word = .ok t) :
    (p.poll b root r).transport.store t = r.store t := by
  rcases p.store_poll b root r t with hsame | hwill | ⟨j, hj, a', htopic'⟩
  · exact hsame
  · exact absurd htopic (Topic.will_ne_state hwill)
  · exact absurd (Nat.succ.inj (Topic.state_inj htopic' htopic).1) (h j hj)

theorem follows_poll (p : Publisher) {b : Board n} {root : String} {r : Recorded τ}
    (h : r.store.Follows root b) :
    (p.poll b root r).transport.store.Follows root (p.poll b root r).board := by
  intro i hi hidle
  rcases p.tells_poll b root r with hsame | ⟨j, hlt, hj, hboard, htells⟩
  · rw [hsame] at hidle
    have hother : ∀ j, b.firstPending? = some j → (j : Nat) ≠ i := by
      rintro j hj rfl
      have hpending := Board.pendingPublish_of_firstPending? hj
      rw [hidle] at hpending
      cases hpending
    rw [hsame]
    exact (h i hi hidle).of_untouched (p.store_poll_of_ne r hother)
  · rw [hboard, Board.getElem_channels_markPublished] at hidle
    rw [hboard, Board.getElem_channels_markPublished]
    by_cases hji : j = i
    · subst hji
      rw [if_pos rfl]
      exact Or.inr (htells.congr rfl)
    · rw [if_neg hji] at hidle
      rw [if_neg hji]
      refine (h i hi hidle).of_untouched (p.store_poll_of_ne r fun j' hj' => ?_)
      obtain rfl := Option.some.inj (hj.symm.trans hj')
      exact hji

end Publisher

theorem Node.announces_readDmx {n : Nat} {η : Type} (node : Node n η) (i : Nat) (h : i < n)
    (hmode : node.readDmx.board.channels[i].mode = node.board.channels[i].mode) :
    node.board.channels[i].Announces node.readDmx.board.channels[i] := by
  rcases node.board_readDmx with hsame | ⟨slots, _, _, happlied⟩
  · rw [hsame]
    exact Channel.Announces.refl node.board.channels[i]
  · rw [happlied, Dmx.Patch.getElem_channels_apply] at hmode
    rw [happlied, Dmx.Patch.getElem_channels_apply]
    refine Or.inr ⟨rfl, ?_⟩
    rw [Channel.portrait, Channel.portrait, hmode]

namespace Session

variable {n : Nat} {η θ τ : Type}

/-- No mode is changed by a universe that is read in the event. -/
def KeepsModes (s : Session n η) (e : Event θ τ) : Prop :=
  s.processes e → ∀ i (h : i < n),
    s.node.readDmx.board.channels[i].mode = s.node.board.channels[i].mode

/-- The broker follows the board, under the root that was set up. -/
structure Informs (settings : Settings) (s : Session n η) : Prop where
  settings_eq : s.node.settings = settings
  follows : (Store.ofCalls s.calls).Follows settings.root.content s.node.board

theorem informs_powerUp (settings : Settings) (options : Options) (hues : η) :
    (powerUp n settings options hues).Informs settings :=
  ⟨rfl, Store.follows_powerUp settings.root.content⟩

theorem Informs.of_edited {settings : Settings} {s : Session n η} {node : Node n η}
    (h : s.Informs settings) (hedit : s.node.Edited node) : (s.withNode node).Informs settings :=
  ⟨hedit.settings.trans h.settings_eq,
    h.follows.of_announces fun i hi => (hedit.board.channel i hi).announces⟩

theorem Informs.process {settings : Settings} {s : Session n η} (h : s.Informs settings)
    (hmodes : ∀ i (h : i < n),
      s.node.readDmx.board.channels[i].mode = s.node.board.channels[i].mode) :
    s.process.Informs settings := by
  refine ⟨s.node.settings_process.trans h.settings_eq, h.follows.of_announces fun i hi => ?_⟩
  show s.node.board.channels[i].Announces s.node.process.2.board.channels[i]
  rw [s.node.board_process, Board.getElem_channels_advance]
  exact (s.node.announces_readDmx i hi (hmodes i hi)).trans (Channel.announces_advance _)

theorem Informs.poll [Transport τ] {settings : Settings} {s : Session n η} (now : Instant) (t : τ)
    (h : s.Informs settings) : (s.poll now t).Informs settings := by
  obtain ⟨rfl, hfollows⟩ := h
  refine ⟨rfl, Publisher.follows_poll s.node.publisher ?_⟩
  rw [Subscription.Plan.store_poll]
  exact hfollows

theorem Informs.flush {settings : Settings} {s : Session n η} (h : s.Informs settings) :
    s.flush.Informs settings := by
  refine ⟨h.settings_eq, h.follows.of_announces fun i hi => ?_⟩
  obtain ⟨dirty, hchannel⟩ := s.node.output.getElem_channels_flush s.node.board i hi
  show s.node.board.channels[i].Announces (s.node.output.flush s.node.board).2.1.channels[i]
  rw [hchannel]
  exact Or.inr ⟨rfl, rfl⟩

theorem Informs.step [HueSource η] [HueSource θ] [Transport τ] {settings : Settings}
    {s s' : Session n η} {e : Event θ τ} (h : s.Informs settings) (hmodes : s.KeepsModes e)
    (hstep : s.step? e = some s') : s'.Informs settings :=
  step?_invariant (fun _ hedit hs => hs.of_edited hedit)
    (fun hprocesses hs => hs.process (hmodes hprocesses)) (fun _ now t hs => hs.poll now t)
    (fun _ hs => hs.flush) (fun _ _ _ hs => ⟨hs.settings_eq, hs.follows⟩) h hstep

/-- Unless a universe changes a mode, a channel that has nothing to tell is known: it looks as
after power-up and none of its messages was ever accepted, or the broker keeps all of them as they
would be written now. Under the topic of each of its values stands that value: both colors in six
digits, brightness, status and mode in decimal. -/
theorem observers_know_board [HueSource η] [HueSource θ] [Transport τ] (settings : Settings)
    (options : Options) (hues : η) (events : List (Event θ τ)) (s : Session n η)
    (hrun : (powerUp n settings options hues).run? events = some s)
    (hmodes : Along KeepsModes (powerUp n settings options hues) events) (i : Nat) (h : i < n)
    (hidle : s.node.board.channels[i].pendingPublish = false) :
    let c := s.node.board.channels[i]
    let text := Topic.stateText settings.root.content (i + 1)
    (c.portrait = Channel.powerUp.portrait ∧
      ∀ message ∈ c.messages, ∀ t : Topic, t.content = text message.1 →
        ∀ call ∈ s.calls, ∀ payload, call.delivered? ≠ some (t, payload)) ∨
    ∀ message ∈ c.messages, ∃ t : Topic, t.content = text message.1 ∧
      Store.ofCalls s.calls t = some message.2 := by
  intro c text
  have hs : s.Informs settings :=
    run?_invariant (fun _ _ _ hmodes h hstep => h.step hmodes hstep) hmodes
      (informs_powerUp settings options hues) hrun
  rcases hs.follows i h hidle with ⟨hfresh, hsilent⟩ | htells
  · exact Or.inl ⟨hfresh, fun message hmessage t ht =>
      (Store.ofCalls_eq_none_iff _ t).1 (hsilent.eq_none c message hmessage t ht)⟩
  · exact Or.inr htells.eq_some

theorem observers_know_board_blue :
    ∃ s : Session 1 SplitMix,
      (powerUp 1 (Settings.blank.setRoot "hall") { Options.standard with dmx := true } ⟨0⟩).run?
        ([.receive "hall/set/1/bcolor" "ff8000".toUTF8 false,
          .receive "hall/set/1/bright" "128".toUTF8 false,
          .receive "hall/set/1/switch" "1".toUTF8 false,
          .receive "hall/set/1/mode" "1".toUTF8 false, .storeUniverse #[0, 0, 9, 1], .process,
          .poll ⟨0⟩ ⟨⟩] : List (Event SplitMix Steady)) = some s ∧
      ∀ entry ∈ [("hall/get/1/color", "000001"), ("hall/get/1/bcolor", "FF8000"),
          ("hall/get/1/status", "1"), ("hall/get/1/bright", "128"), ("hall/get/1/mode", "1")],
        ∃ t : Topic, t.content = entry.1 ∧ Store.ofCalls s.calls t = some entry.2 := by
  let events : List (Event SplitMix Steady) :=
    [.receive "hall/set/1/bcolor" "ff8000".toUTF8 false,
      .receive "hall/set/1/bright" "128".toUTF8 false,
      .receive "hall/set/1/switch" "1".toUTF8 false,
      .receive "hall/set/1/mode" "1".toUTF8 false, .storeUniverse #[0, 0, 9, 1], .process,
      .poll ⟨0⟩ ⟨⟩]
  have hmodes : Along KeepsModes (powerUp 1 (Settings.blank.setRoot "hall")
      { Options.standard with dmx := true } (⟨0⟩ : SplitMix)) events := by
    refine .cons False.elim rfl (.cons False.elim rfl (.cons False.elim rfl ?_))
    refine .cons False.elim rfl (.cons False.elim rfl ?_)
    exact .cons (fun _ => by decide +kernel) rfl (.cons False.elim rfl trivial)
  obtain ⟨s, hs⟩ : ∃ s, (powerUp 1 (Settings.blank.setRoot "hall")
      { Options.standard with dmx := true } (⟨0⟩ : SplitMix)).run? events = some s := ⟨_, rfl⟩
  have htold : s.node.board.channels[0].pendingPublish = false ∧
      s.node.board.channels[0].portrait ≠ Channel.powerUp.portrait ∧
      [("hall/get/1/color", "000001"), ("hall/get/1/bcolor", "FF8000"),
          ("hall/get/1/status", "1"), ("hall/get/1/bright", "128"), ("hall/get/1/mode", "1")] =
        s.node.board.channels[0].messages.map fun message =>
          (Topic.stateText (Settings.blank.setRoot "hall").root.content 1 message.1, message.2) := by
    obtain rfl := Option.some.inj hs
    exact ⟨by decide +kernel, by decide +kernel, by decide +kernel⟩
  obtain ⟨hidle, hchanged, hentries⟩ := htold
  refine ⟨s, hs, ?_⟩
  rcases observers_know_board _ _ _ events s hs hmodes 0 (by decide) hidle with ⟨hfresh, _⟩ | hkept
  · exact absurd hfresh hchanged
  · intro entry hentry
    rw [hentries] at hentry
    obtain ⟨message, hmessage, rfl⟩ := List.mem_map.1 hentry
    exact hkept message hmessage

end Session

end Luminaire
