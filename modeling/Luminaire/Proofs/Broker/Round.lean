import Luminaire.Proofs.Broker.Presence
import Luminaire.Proofs.Node.Step
import Mathlib.Data.List.Sort

/-!
# One channel after the other

A poll is about the first channel that is pending. Its calls about that channel follow the list of
its messages up to the first one that does not go out (`HandsOverInOrder`), and only if there was no
such message is the channel taken from the pending ones. Messages that went out before cannot be
taken back, and no trace of them is left on the board: a poll that told no channel leaves the board
as it found it, and so the next one begins with the same channel and its first message.

In the list `Board.pending` of the channels that are still to be told a poll takes the head or
nothing. What some polls told is therefore a front part of that list, whatever was refused.
-/

namespace Luminaire

namespace Board

variable {n : Nat}

/-- The channels that have something to tell, in their order. -/
def pending (b : Board n) : List (Fin n) :=
  (List.finRange n).filter fun i => (b.channels.get i).pendingPublish

theorem mem_pending_iff (b : Board n) (i : Fin n) :
    i ∈ b.pending ↔ (b.channels.get i).pendingPublish = true := by
  simp [pending]

theorem pairwise_pending (b : Board n) : b.pending.Pairwise (· < ·) :=
  (List.sortedLT_finRange n).pairwise.filter _

theorem get_markPublished (b : Board n) (i j : Fin n) :
    (b.markPublished i).channels.get j =
      if i = j then { b.channels.get j with pendingPublish := false } else b.channels.get j := by
  have hmarked := getElem_channels_markPublished b i j j.isLt
  simp only [← Fin.ext_iff] at hmarked
  exact hmarked

theorem pending_of_firstPending?_eq_none {b : Board n} (h : b.firstPending? = none) :
    b.pending = [] := by
  rw [firstPending?_eq_none_iff] at h
  rw [List.eq_nil_iff_forall_not_mem]
  intro i hi
  have hidle : (b.channels.get i).pendingPublish = false := h i i.isLt
  rw [mem_pending_iff, hidle] at hi
  cases hi

/-- The first channel that is pending heads the list, and the rest of it is pending when that
channel has been told. -/
theorem pending_of_firstPending? {b : Board n} {i : Fin n} (h : b.firstPending? = some i) :
    b.pending = i :: (b.markPublished i).pending := by
  -- both lists are in order, so it is enough that they have the same members
  have hmem : ∀ j, j ∈ b.pending ↔ j ∈ i :: (b.markPublished i).pending := by
    intro j
    have hfirst : (b.channels.get i).pendingPublish = true := pendingPublish_of_firstPending? h
    rw [List.mem_cons, mem_pending_iff, mem_pending_iff, get_markPublished]
    by_cases hij : i = j
    · subst hij
      simp [hfirst]
    · simp [hij, Ne.symm hij]
  have hlater : ∀ j ∈ (b.markPublished i).pending, i < j := by
    intro j hj
    rw [mem_pending_iff, get_markPublished] at hj
    split at hj
    next => cases hj
    next hij =>
      rcases lt_trichotomy i j with hlt | heq | hgt
      · exact hlt
      · exact absurd heq hij
      · have hidle : (b.channels.get j).pendingPublish = false :=
          pendingPublish_before_firstPending? h hgt
        rw [hidle] at hj
        cases hj
  exact b.pairwise_pending.eq_of_mem_iff
    (List.pairwise_cons.2 ⟨hlater, (b.markPublished i).pairwise_pending⟩) hmem

/-- These channels are no longer pending, and nothing else has changed. -/
structure Cleared (b : Board n) (told : List (Fin n)) (b' : Board n) : Prop where
  channels : ∀ j, b'.channels.get j =
    if j ∈ told then { b.channels.get j with pendingPublish := false } else b.channels.get j
  strobe : b'.strobe = b.strobe
  changed : b'.changed = b.changed

theorem Cleared.refl (b : Board n) : b.Cleared [] b where
  channels j := by simp
  strobe := rfl
  changed := rfl

theorem cleared_markPublished (b : Board n) (i : Fin n) : b.Cleared [i] (b.markPublished i) where
  channels j := by simp [get_markPublished, eq_comm]
  strobe := rfl
  changed := rfl

theorem Cleared.append {b b' b'' : Board n} {told told' : List (Fin n)} (h : b.Cleared told b')
    (h' : b'.Cleared told' b'') : b.Cleared (told ++ told') b'' where
  channels j := by
    rw [h'.channels, h.channels]
    by_cases hj : j ∈ told
    · simp [hj]
    · simp [hj]
  strobe := h'.strobe.trans h.strobe
  changed := h'.changed.trans h.changed

end Board

/-- What is told of a channel: its values with their names, in the order in which they are sent. -/
def Channel.messages (c : Channel) : List (String × String) :=
  [ ("color", c.current.toNotation),
    ("bcolor", c.base.toNotation),
    ("status", Decimal.writeByte c.status.digit),
    ("bright", Decimal.writeByte c.brightness),
    ("mode", Decimal.writeByte c.mode.digit) ]

/-- The text of the topic for the named value of a channel, whether it fits or not. -/
def Topic.stateText (root : String) (number : Nat) (name : String) : String :=
  root ++ "/get/" ++ Nat.repr number ++ "/" ++ name

theorem Topic.state_eq_ok_iff (root : String) (number : Nat) (name : String) (topic : Topic) :
    Topic.state root number name = .ok topic ↔
      topic.content = Topic.stateText root number name := by
  rw [state, build_eq_ok_iff, join_state]
  exact eq_comm

/-- The call hands over the value of a channel under its name, to be retained. -/
def Call.HandsOver (root : String) (number : Nat) (message : String × String) (call : Call) :
    Prop :=
  ∃ topic : Topic, topic.content = Topic.stateText root number message.1 ∧
    call.request = .publish topic message.2 true

namespace Publisher

section Messages

variable {root : String} {number : Nat} {message : String × String}
  {messages : List (String × String)} {call : Call} {calls : List Call}

/-- How a round ends that has these messages still to send: there are none, or there is no topic for
the next one, or it is refused. -/
def EndsAt (root : String) (number : Nat) : List (String × String) → List Call → Prop
  | [], last => last = []
  | message :: _, last =>
      64 < (Topic.stateText root number message.1).utf8ByteSize ∧ last = [] ∨
      ∃ call : Call, last = [call] ∧ call.HandsOver root number message ∧ call.accepted = false

/-- The calls hand over the messages in their order, up to the first one that has no topic or is
refused. -/
def HandsOverInOrder (root : String) (number : Nat) (messages : List (String × String))
    (calls : List Call) : Prop :=
  ∃ (sent rest : List (String × String)) (accepted last : List Call),
    messages = sent ++ rest ∧ calls = accepted ++ last ∧
    List.Forall₂ (fun message call => call.HandsOver root number message ∧ call.accepted = true)
      sent accepted ∧
    EndsAt root number rest last

theorem EndsAt.handsOverInOrder (h : EndsAt root number messages calls) :
    HandsOverInOrder root number messages calls :=
  ⟨[], messages, [], calls, rfl, rfl, .nil, h⟩

theorem HandsOverInOrder.cons (hcall : call.HandsOver root number message)
    (haccepted : call.accepted = true) (h : HandsOverInOrder root number messages calls) :
    HandsOverInOrder root number (message :: messages) (call :: calls) := by
  obtain ⟨sent, rest, accepted, last, rfl, rfl, hsent, hends⟩ := h
  exact ⟨message :: sent, rest, call :: accepted, last, rfl, rfl,
    .cons ⟨hcall, haccepted⟩ hsent, hends⟩

/-- The first message comes first, if there is a topic for it. -/
theorem HandsOverInOrder.exists_cons
    (h : HandsOverInOrder root number (message :: messages) calls)
    (hfits : (Topic.stateText root number message.1).utf8ByteSize ≤ 64) :
    ∃ call later, calls = call :: later ∧ call.HandsOver root number message := by
  obtain ⟨sent, rest, accepted, last, hmessages, rfl, hsent, hends⟩ := h
  -- it is the first of those that were accepted, or the round ended with it
  cases hsent with
  | nil =>
      obtain rfl : message :: messages = rest := hmessages
      rcases hends with ⟨hlong, -⟩ | ⟨call, rfl, hcall, -⟩
      · omega
      · exact ⟨call, [], rfl, hcall⟩
  | cons hcall _ =>
      obtain ⟨rfl, -⟩ := List.cons.inj hmessages
      exact ⟨_, _, rfl, hcall.1⟩

variable {τ : Type} [Transport τ]

/-- A round about a channel goes through exactly if as many calls were accepted as there are
attributes to report. -/
theorem exists_handsOverInOrder (root : String) (number : Nat) (c : Channel) (as : List Attribute)
    (r : Recorded τ) :
    ∃ calls, (sendAttributes root number c as r).2.calls = r.calls ++ calls ∧
      HandsOverInOrder root number (as.map fun a => (a.word, a.report c)) calls ∧
      ((sendAttributes root number c as r).1.isOk = true ↔
        calls.countP Call.accepted = as.length) := by
  induction as generalizing r with
  | nil => exact ⟨[], by simp, EndsAt.handsOverInOrder rfl, by simp [Except.isOk, Except.toBool]⟩
  | cons a rest ih =>
      rw [sendAttributes_cons]
      cases htopic : Topic.state root number a.word with
      | error e =>
          have hlong := (Topic.build_eq_error_iff _ e).1 htopic
          rw [Topic.join_state] at hlong
          exact ⟨[], by simp [send], EndsAt.handsOverInOrder (Or.inl ⟨hlong, rfl⟩),
            by simp [send, Except.isOk, Except.toBool]⟩
      | ok topic =>
          obtain ⟨call, hrequest, hcalls, hsent⟩ := exists_call_send topic (a.report c) r
          have hcall : call.HandsOver root number (a.word, a.report c) :=
            ⟨topic, (Topic.state_eq_ok_iff root number a.word topic).1 htopic, hrequest⟩
          split
          next r' hok =>
            rw [hok] at hcalls hsent
            have haccepted : call.accepted = true := hsent.symm
            obtain ⟨later, hlater, hreports, hround⟩ := ih r'
            refine ⟨call :: later, ?_, hreports.cons hcall haccepted, ?_⟩
            · rw [hlater, hcalls, List.append_assoc]
              rfl
            · rw [hround, List.countP_cons_of_pos haccepted, List.length_cons]
              omega
          next e r' herror =>
            rw [herror] at hcalls hsent
            have hrefused : call.accepted = false := hsent.symm
            refine ⟨[call], hcalls,
              EndsAt.handsOverInOrder (Or.inr ⟨call, rfl, hcall, hrefused⟩), ?_⟩
            simp [hrefused, Except.isOk, Except.toBool]

end Messages

variable {n : Nat} {τ : Type} [Transport τ]

/-- The presence message, if it is due and there is a topic for it. -/
def presence (p : Publisher) (root : String) : List Request :=
  match Topic.will root with
  | .ok will => if p.onlinePending then [.publish will onlineMessage retain] else []
  | .error _ => []

/-- The calls are about the first channel that is pending. It has been told if all of its messages
were accepted, and otherwise no channel has. -/
def TellsFirst (root : String) (b : Board n) (calls : List Call) (published : Option (Fin n)) :
    Prop :=
  match b.pending with
  | [] => calls = [] ∧ published = none
  | i :: _ =>
      HandsOverInOrder root (i + 1) (b.channels.get i).messages calls ∧
      published = if calls.countP Call.accepted = 5 then some i else none

theorem tellsFirst_nil {root : String} {b : Board n} (h : b.firstPending? = none) :
    TellsFirst root b [] none := by
  rw [TellsFirst, Board.pending_of_firstPending?_eq_none h]
  exact ⟨rfl, rfl⟩

theorem TellsFirst.handsOverInOrder {root : String} {b : Board n} {calls : List Call}
    {published : Option (Fin n)} (h : TellsFirst root b calls published) {i : Fin n}
    (hi : b.pending.head? = some i) :
    HandsOverInOrder root (i + 1) (b.channels.get i).messages calls := by
  obtain ⟨later, hpending⟩ := List.head?_eq_some_iff.1 hi
  rw [TellsFirst, hpending] at h
  exact h.1

theorem exists_calls_pollOnline (p : Publisher) (root : String) (r : Recorded τ) :
    ∃ online : List Call, (p.pollOnline root r).2.calls = r.calls ++ online ∧
      online.map Call.request = p.presence root := by
  cases hdue : p.onlinePending with
  | false =>
      refine ⟨[], ?_, ?_⟩
      · rw [pollOnline_of_told hdue, List.append_nil]
      · rw [presence, hdue]
        split <;> rfl
  | true =>
      cases hwill : Topic.will root with
      | error e =>
          refine ⟨[], ?_, ?_⟩
          · rw [pollOnline, if_pos hdue, sendOnline, hwill, send, List.append_nil]
          · rw [presence, hwill, List.map_nil]
      | ok will =>
          obtain ⟨call, hcall, hcalls, -⟩ := exists_call_pollOnline hdue hwill r
          refine ⟨[call], hcalls, ?_⟩
          rw [presence, hwill, hdue, List.map_singleton, (call.announces_iff will).1 hcall]
          rfl

theorem published_pollChannel {b : Board n} {i : Fin n} (h : b.firstPending? = some i)
    (root : String) (t : τ) :
    (pollChannel b root t).1 =
      if (sendChannel root (i + 1) (b.channels.get i) t).1.isOk then some i else none := by
  rw [pollChannel, h]
  simp only
  split
  next t' hok => exact (if_pos (congrArg (fun sent => sent.1.isOk) hok)).symm
  next e t' herror =>
    have hrefused : (sendChannel root (i + 1) (b.channels.get i) t).1.isOk = false :=
      congrArg (fun sent => sent.1.isOk) herror
    exact (if_neg (Bool.eq_false_iff.1 hrefused)).symm

theorem tellsFirst_pollChannel (root : String) (b : Board n) (r : Recorded τ) :
    ∃ calls, (pollChannel b root r).2.2.calls = r.calls ++ calls ∧
      TellsFirst root b calls (pollChannel b root r).1 := by
  cases hfirst : b.firstPending? with
  | none =>
      refine ⟨[], ?_, ?_⟩
      · rw [calls_pollChannel, hfirst, List.append_nil]
      · simpa only [pollChannel, hfirst] using tellsFirst_nil hfirst
  | some i =>
      obtain ⟨calls, hcalls, hreports, hround⟩ :=
        exists_handsOverInOrder root (i + 1) (b.channels.get i) Attribute.all r
      refine ⟨calls, ?_, ?_⟩
      · rw [calls_pollChannel, hfirst]
        exact hcalls
      · rw [TellsFirst, Board.pending_of_firstPending? hfirst]
        refine ⟨hreports, ?_⟩
        rw [published_pollChannel hfirst]
        simp only [sendChannel, hround]
        rfl

/-- A poll takes the first pending channel from the pending ones if it told it, and leaves the board
as it is if it told none. -/
theorem poll_cases (p : Publisher) (b : Board n) (root : String) (t : τ) :
    (p.poll b root t).published = none ∧ (p.poll b root t).board = b ∨
      ∃ i, b.firstPending? = some i ∧ (p.poll b root t).published = some i ∧
        (p.poll b root t).board = b.markPublished i := by
  rw [poll]
  split
  next => exact Or.inl ⟨rfl, rfl⟩
  next =>
    simp only [pollChannel]
    split
    next => exact Or.inl ⟨rfl, rfl⟩
    next i hfirst =>
      split
      next => exact Or.inr ⟨i, hfirst, rfl, rfl⟩
      next => exact Or.inl ⟨rfl, rfl⟩

theorem board_poll_of_none {p : Publisher} {b : Board n} {root : String} {t : τ}
    (h : (p.poll b root t).published = none) : (p.poll b root t).board = b := by
  rcases p.poll_cases b root t with ⟨-, hboard⟩ | ⟨i, -, hsome, -⟩
  · exact hboard
  · rw [h] at hsome
    cases hsome

/-- The calls of a poll on a connection: presence, if it is due, and then the first pending
channel. -/
theorem exists_calls_poll {r : Recorded τ} (h : (Transport.isConnected r.transport).1 = true)
    (p : Publisher) (b : Board n) (root : String) :
    ∃ online channel : List Call,
      (p.poll b root r).transport.calls = r.calls ++ (online ++ channel) ∧
      online.map Call.request = p.presence root ∧
      TellsFirst root b channel (p.poll b root r).published := by
  have hlook : (Transport.isConnected r).1 = true := h
  obtain ⟨online, honline, hpresence⟩ :=
    p.exists_calls_pollOnline root (Transport.isConnected r).2
  obtain ⟨channel, hchannel, htells⟩ :=
    tellsFirst_pollChannel root b (p.pollOnline root (Transport.isConnected r).2).2
  rw [poll_of_connected hlook]
  refine ⟨online, channel, ?_, hpresence, htells⟩
  rw [hchannel, honline, List.append_assoc]
  rfl

/-- What a poll told was the first of the pending channels, and the others are still pending. -/
theorem pending_poll (p : Publisher) (b : Board n) (root : String) (t : τ) :
    b.pending = (p.poll b root t).published.toList ++ (p.poll b root t).board.pending := by
  rcases p.poll_cases b root t with ⟨hnone, hboard⟩ | ⟨i, hfirst, hsome, hboard⟩
  · rw [hnone, hboard]
    rfl
  · rw [hsome, hboard]
    exact Board.pending_of_firstPending? hfirst

theorem cleared_poll (p : Publisher) (b : Board n) (root : String) (t : τ) :
    b.Cleared (p.poll b root t).published.toList (p.poll b root t).board := by
  rcases p.poll_cases b root t with ⟨hnone, hboard⟩ | ⟨i, -, hsome, hboard⟩
  · rw [hnone, hboard]
    exact .refl b
  · rw [hsome, hboard]
    exact b.cleared_markPublished i

/-- The board after some polls, the first one first. Each may have its own publisher, and its own
transport to fail on. -/
def boardAfter (root : String) : Board n → List (Publisher × τ) → Board n
  | b, [] => b
  | b, (p, t) :: rest => boardAfter root (p.poll b root t).board rest

/-- The channels that some polls told, in the order of the polls. -/
def toldBy (root : String) : Board n → List (Publisher × τ) → List (Fin n)
  | _, [] => []
  | b, (p, t) :: rest =>
      (p.poll b root t).published.toList ++ toldBy root (p.poll b root t).board rest

theorem pending_boardAfter (root : String) (b : Board n) (polls : List (Publisher × τ)) :
    b.pending = toldBy root b polls ++ (boardAfter root b polls).pending := by
  induction polls generalizing b with
  | nil => rfl
  | cons poll rest ih =>
      obtain ⟨p, t⟩ := poll
      rw [toldBy, boardAfter, List.append_assoc, ← ih]
      exact p.pending_poll b root t

theorem cleared_boardAfter (root : String) (b : Board n) (polls : List (Publisher × τ)) :
    b.Cleared (toldBy root b polls) (boardAfter root b polls) := by
  induction polls generalizing b with
  | nil => exact .refl b
  | cons poll rest ih =>
      obtain ⟨p, t⟩ := poll
      exact (p.cleared_poll b root t).append (ih _)

/-- Polls tell the channels in order, and each at most once. -/
theorem pairwise_toldBy (root : String) (b : Board n) (polls : List (Publisher × τ)) :
    (toldBy root b polls).Pairwise (· < ·) := by
  have hpending := b.pairwise_pending
  rw [pending_boardAfter root b polls] at hpending
  exact (List.pairwise_append.1 hpending).1

/-- A channel that is still pending after some polls is as it was before them. -/
theorem get_boardAfter_of_mem {root : String} {b : Board n} {polls : List (Publisher × τ)}
    {i : Fin n} (h : i ∈ (boardAfter root b polls).pending) :
    (boardAfter root b polls).channels.get i = b.channels.get i := by
  have hpending := b.pairwise_pending
  rw [pending_boardAfter root b polls] at hpending
  have huntold : i ∉ toldBy root b polls := fun htold =>
    lt_irrefl i ((List.pairwise_append.1 hpending).2.2 i htold i h)
  rw [(cleared_boardAfter root b polls).channels, if_neg huntold]

/-- A poll changes nothing on the board, except that the first pending channel is no longer pending
if it is the one that was told. Without a connection no call is made and no channel is told. On a
connection the calls that are not about presence hand over the five messages about that channel in
their order, up to the first one that has no topic or is refused, and it has been told exactly if
all five were accepted. What polls tell, however they fail, is therefore a front part of the
channels that were pending at the start; and if the last one failed, the next one on a connection
begins anew with the first message about the same channel, as it was at the start. -/
theorem polls_tell_in_order (root : String) :
    (∀ (p : Publisher) (b : Board n) (r : Recorded τ),
      let round := p.poll b root r
      b.Cleared round.published.toList round.board ∧
      (∀ i, round.published = some i → b.pending.head? = some i) ∧
      ((Transport.isConnected r.transport).1 = false →
        round.transport.calls = r.calls ∧ round.published = none) ∧
      ((Transport.isConnected r.transport).1 = true → ∃ online channel : List Call,
        round.transport.calls = r.calls ++ (online ++ channel) ∧
        online.map Call.request = p.presence root ∧
        TellsFirst root b channel round.published)) ∧
    ∀ (b : Board n) (polls : List (Publisher × Recorded τ)),
      let told := toldBy root b polls
      let after := boardAfter root b polls
      b.pending = told ++ after.pending ∧ told.Pairwise (· < ·) ∧ b.Cleared told after ∧
      ∀ (i : Fin n) (p p' : Publisher) (r r' : Recorded τ), after.pending.head? = some i →
        (p.poll after root r).published = none → (Transport.isConnected r'.transport).1 = true →
        let again := p'.poll (p.poll after root r).board root r'
        ∃ online channel : List Call,
          again.transport.calls = r'.calls ++ (online ++ channel) ∧
          online.map Call.request = p'.presence root ∧
          HandsOverInOrder root (i + 1) (b.channels.get i).messages channel ∧
          ((Topic.stateText root (i + 1) "color").utf8ByteSize ≤ 64 → ∃ call later,
            channel = call :: later ∧
            call.HandsOver root (i + 1) ("color", (b.channels.get i).current.toNotation)) := by
  refine ⟨fun p b r => ⟨p.cleared_poll b root r, fun i hi => ?head, fun hlook => ?unconnected,
    fun hlook => p.exists_calls_poll hlook b root⟩, fun b polls => ⟨pending_boardAfter root b polls,
    pairwise_toldBy root b polls, cleared_boardAfter root b polls, ?again⟩⟩
  case head =>
    rw [p.pending_poll b root r, hi]
    rfl
  case unconnected =>
    have hlook' : (Transport.isConnected r).1 = false := hlook
    rw [poll_of_unconnected hlook']
    exact ⟨rfl, rfl⟩
  case again =>
    intro i p p' r r' hi hfailed hlook again
    have hunchanged := board_poll_of_none hfailed
    have hsame := get_boardAfter_of_mem (List.mem_of_mem_head? hi)
    obtain ⟨online, channel, hcalls, hpresence, htells⟩ :=
      p'.exists_calls_poll hlook (p.poll (boardAfter root b polls) root r).board root
    rw [hunchanged] at htells
    have horder := htells.handsOverInOrder hi
    rw [hsame] at horder
    exact ⟨online, channel, hcalls, hpresence, horder, horder.exists_cons⟩

/-- The first of two channels has been told. There is no room for the fourth message about the other
one, which is then told anew from its first. -/
theorem polls_tell_in_order_hall :
    let pending : Channel := { Channel.powerUp with pendingPublish := true }
    let b : Board 2 := ⟨Vector.replicate 2 pending, 0, false⟩
    let polls : List (Publisher × Recorded Crowded) := [(start, ⟨⟨5⟩, []⟩)]
    let failed := start.poll (boardAfter "hall" b polls) "hall" (⟨⟨3⟩, []⟩ : Recorded Crowded)
    let again := start.poll failed.board "hall" (⟨⟨5⟩, []⟩ : Recorded Crowded)
    b.pending = [0, 1] ∧ toldBy "hall" b polls = [0] ∧ (boardAfter "hall" b polls).pending = [1] ∧
      failed.transport.calls.map Call.accepted = [true, true, true, false] ∧
      failed.published = none ∧
      (∃ call later, again.transport.calls = call :: later ∧
        call.HandsOver "hall" 2 ("color", "000000")) ∧
      again.published = some 1 := by
  intro pending b polls failed again
  obtain ⟨-, hpolls⟩ := polls_tell_in_order (n := 2) (τ := Crowded) "hall"
  obtain ⟨hpending, -, -, hagain⟩ := hpolls b polls
  have hfailed : failed.published = none := by decide +kernel
  have htold : toldBy "hall" b polls = [0] := by decide +kernel
  have hleft : (boardAfter "hall" b polls).pending = [1] := by decide +kernel
  obtain ⟨online, channel, hcalls, hpresence, -, hfirst⟩ :=
    hagain 1 start start _ ⟨⟨5⟩, []⟩ (by rw [hleft]; rfl) hfailed rfl
  obtain ⟨call, later, rfl, hcall⟩ := hfirst (by decide +kernel)
  have hblack : (b.channels.get 1).current.toNotation = "000000" := by decide +kernel
  rw [hblack] at hcall
  refine ⟨?_, htold, hleft, by decide +kernel, hfailed, ⟨call, later, ?_, hcall⟩, by decide +kernel⟩
  · rw [hpending, htold, hleft]
    rfl
  · obtain rfl : online = [] := List.map_eq_nil_iff.1 hpresence
    exact hcalls

end Publisher

end Luminaire
