import Luminaire.Broker.Publisher
import Luminaire.Broker.Subscription
import Luminaire.Node.Settings
import Luminaire.Proofs.Text.Numerals
import Luminaire.Proofs.Text.Octets

/-!
# Talking to a broker that takes everything

A transport is `Reliable` if it is connected and takes every call, now and after any further
calls. What a node sends is then refused only for its topic, and no topic that a node writes is
too long: root, channel number and name have room together, since a channel number has at most
twenty digits. So a poll tells presence, and the first channel that has something to tell.

The plan is another matter. It forgets an appointment whose time has come whether or not the
subscriptions went through.
-/

namespace Luminaire

namespace Transport

variable {τ : Type} [Transport τ]

/-- The transport is connected and takes every call, now and after any calls. -/
def Reliable (t : τ) : Prop :=
  ∃ Good : τ → Prop, Good t ∧ ∀ t, Good t →
    ((isConnected t).1 = true ∧ Good (isConnected t).2) ∧
    (∀ topic payload retain, (publish t topic payload retain).1 = .ok () ∧
      Good (publish t topic payload retain).2) ∧
    ∀ filter, (subscribe t filter).1 = .ok () ∧ Good (subscribe t filter).2

theorem Reliable.isConnected {t : τ} (h : Reliable t) :
    (Transport.isConnected t).1 = true ∧ Reliable (Transport.isConnected t).2 := by
  obtain ⟨Good, ht, hgood⟩ := h
  exact ⟨(hgood t ht).1.1, Good, (hgood t ht).1.2, hgood⟩

theorem Reliable.publish {t : τ} (h : Reliable t) (topic : Topic) (payload : String)
    (retain : Bool) :
    (Transport.publish t topic payload retain).1 = .ok () ∧
      Reliable (Transport.publish t topic payload retain).2 := by
  obtain ⟨Good, ht, hgood⟩ := h
  obtain ⟨hok, hnext⟩ := (hgood t ht).2.1 topic payload retain
  exact ⟨hok, Good, hnext, hgood⟩

theorem Reliable.subscribe {t : τ} (h : Reliable t) (filter : Topic) :
    (Transport.subscribe t filter).1 = .ok () ∧ Reliable (Transport.subscribe t filter).2 := by
  obtain ⟨Good, ht, hgood⟩ := h
  obtain ⟨hok, hnext⟩ := (hgood t ht).2.2 filter
  exact ⟨hok, Good, hnext, hgood⟩

/-- A record of the calls does not stand in the way. -/
theorem Reliable.recorded {t : τ} (h : Reliable t) (calls : List Call) :
    Reliable (⟨t, calls⟩ : Recorded τ) := by
  obtain ⟨Good, ht, hgood⟩ := h
  refine ⟨fun r => Good r.transport, ht, fun r hr => ?_⟩
  obtain ⟨hconnected, hpublish, hsubscribe⟩ := hgood r.transport hr
  exact ⟨hconnected, hpublish, hsubscribe⟩

end Transport

theorem utf8ByteSize_repr_le {m digits : Nat} (hdigits : 0 < digits) (h : m < 10 ^ digits) :
    (Nat.repr m).utf8ByteSize ≤ digits := by
  have hnumeral := Decimal.isNumeral_repr hdigits h
  have hascii : ∀ c ∈ (Nat.repr m).toList, c.toNat < 128 := by
    intro c hc
    exact Nat.lt_of_le_of_lt (Char.isDigit_iff_toNat.1 (hnumeral.digits c hc)).2 (by decide)
  rw [utf8ByteSize_eq, utf8Length_of_ascii hascii]
  exact hnumeral.length_le

namespace Topic

theorem exists_build {pieces : List String} (h : (String.join pieces).utf8ByteSize ≤ capacity) :
    ∃ topic, build pieces = .ok topic :=
  ⟨⟨String.join pieces, h⟩, (build_eq_ok_iff pieces _).2 rfl⟩

theorem exists_will (root : Text Settings.rootCapacity) :
    ∃ topic, will root.content = .ok topic := by
  have hroot := root.fits
  have hsuffix : willSuffix.utf8ByteSize = 11 := rfl
  apply exists_build
  rw [join_pair]
  simp only [String.utf8ByteSize_append, hsuffix, capacity]
  simp only [Settings.rootCapacity] at hroot
  omega

theorem exists_state (root : Text Settings.rootCapacity) {number : Nat}
    (hnumber : number < UInt64.size) (a : Attribute) :
    ∃ topic, state root.content number a.word = .ok topic := by
  have hroot := root.fits
  have hsegment : getSegment.utf8ByteSize = 5 := rfl
  have hdigits : (Nat.repr number).utf8ByteSize ≤ 20 :=
    utf8ByteSize_repr_le (by decide) (Nat.lt_trans hnumber (by decide))
  have hslash : "/".utf8ByteSize = 1 := rfl
  have hword : a.word.utf8ByteSize ≤ 6 := by cases a <;> decide
  apply exists_build
  rw [join_state]
  simp only [String.utf8ByteSize_append, hsegment, hslash, capacity]
  simp only [Settings.rootCapacity] at hroot
  omega

end Topic

namespace Board

variable {n : Nat}

/-- The board after the first channel that has something to tell has been told. -/
def markFirst (b : Board n) : Board n :=
  match b.firstPending? with
  | none => b
  | some i => b.markPublished i

end Board

namespace Publisher

variable {n : Nat} {τ : Type} [Transport τ]

theorem send_of_reliable {t : τ} (ht : Transport.Reliable t) {topic : Except CapacityError Topic}
    (htopic : ∃ fitting, topic = .ok fitting) (payload : String) :
    (send topic payload t).1 = .ok () ∧ Transport.Reliable (send topic payload t).2 := by
  obtain ⟨fitting, rfl⟩ := htopic
  obtain ⟨hok, hnext⟩ := ht.publish fitting payload retain
  rw [send]
  split
  next t' hsent =>
    rw [hsent] at hnext
    exact ⟨rfl, hnext⟩
  next e t' hsent =>
    rw [hsent] at hok
    cases hok

theorem sendAttributes_of_reliable {root : String} {number : Nat}
    (htopics : ∀ a : Attribute, ∃ topic, Topic.state root number a.word = .ok topic) (c : Channel)
    (as : List Attribute) {t : τ} (ht : Transport.Reliable t) :
    (sendAttributes root number c as t).1 = .ok () := by
  induction as generalizing t with
  | nil => rfl
  | cons a as ih =>
      obtain ⟨hok, hnext⟩ := send_of_reliable ht (htopics a) (a.report c)
      rw [sendAttributes_cons]
      split
      next t' hsent =>
        rw [hsent] at hnext
        exact ih hnext
      next e t' hsent =>
        rw [hsent] at hok
        cases hok

/-- A round about a channel hands over every attribute of it, in order. -/
theorem requests_sendAttributes {root : String} {number : Nat} {topic : Attribute → Topic}
    (htopic : ∀ a : Attribute, Topic.state root number a.word = .ok (topic a)) (c : Channel)
    (as : List Attribute) {r : Recorded τ} (hr : Transport.Reliable r.transport) :
    (sendAttributes root number c as r).2.calls.map Call.request =
      r.calls.map Call.request ++ as.map fun a => .publish (topic a) (a.report c) retain := by
  induction as generalizing r with
  | nil => simp
  | cons a as ih =>
      have hsent : (Transport.publish r (topic a) (a.report c) retain).1 = .ok () ∧
          Transport.Reliable (Transport.publish r (topic a) (a.report c) retain).2.transport :=
        hr.publish (topic a) (a.report c) retain
      have hrequests : (Transport.publish r (topic a) (a.report c) retain).2.calls.map Call.request =
          r.calls.map Call.request ++ [.publish (topic a) (a.report c) retain] := List.map_append
      rw [sendAttributes_cons, htopic a, send]
      generalize Transport.publish r (topic a) (a.report c) retain = sent at hsent hrequests ⊢
      obtain ⟨outcome, r'⟩ := sent
      obtain ⟨rfl, hnext⟩ := hsent
      refine (ih hnext).trans ?_
      rw [hrequests, List.append_assoc]
      rfl

theorem pollOnline_of_reliable {root : String} (htopic : ∃ topic, Topic.will root = .ok topic)
    (p : Publisher) {t : τ} (ht : Transport.Reliable t) :
    (p.pollOnline root t).1.onlinePending = false ∧
      Transport.Reliable (p.pollOnline root t).2 := by
  obtain ⟨hok, hnext⟩ := send_of_reliable ht htopic onlineMessage
  rw [pollOnline]
  split
  next =>
    split
    next t' hsent =>
      rw [sendOnline] at hsent
      rw [hsent] at hnext
      exact ⟨rfl, hnext⟩
    next e t' hsent =>
      rw [sendOnline] at hsent
      rw [hsent] at hok
      cases hok
  next honline => exact ⟨Bool.eq_false_iff.2 honline, ht⟩

theorem pollOnline_of_told {p : Publisher} (h : p.onlinePending = false) (root : String) (t : τ) :
    p.pollOnline root t = (p, t) := by
  rw [pollOnline, h]
  rfl

theorem publisher_poll_of_told {p : Publisher} (h : p.onlinePending = false) (b : Board n)
    (root : String) (t : τ) : (p.poll b root t).publisher = p := by
  rw [poll]
  split
  next => rfl
  next t' _ => exact congrArg Prod.fst (pollOnline_of_told h root t')

/-- With nothing to tell a poll does no more than look whether the connection stands. -/
theorem poll_of_idle {p : Publisher} (hp : p.onlinePending = false) {b : Board n}
    (hb : b.firstPending? = none) (root : String) (t : τ) :
    p.poll b root t = ⟨p, b, (Transport.isConnected t).2, none⟩ := by
  rw [poll]
  split
  next t' hlook => rw [hlook]
  next t' hlook =>
    rw [hlook, pollOnline_of_told hp]
    simp only [pollChannel, hb]

theorem pollChannel_of_reliable (root : Text Settings.rootCapacity) {b : Board n}
    (hn : n < UInt64.size) {t : τ} (ht : Transport.Reliable t) :
    (pollChannel b root.content t).1 = b.firstPending? ∧
      (pollChannel b root.content t).2.1 = b.markFirst := by
  rw [pollChannel, Board.markFirst]
  cases b.firstPending? with
  | none => exact ⟨rfl, rfl⟩
  | some i =>
      have htopics := Topic.exists_state root (Nat.lt_of_le_of_lt (Nat.succ_le_of_lt i.isLt) hn)
      have hok := sendAttributes_of_reliable htopics b.channels[i] Attribute.all ht
      simp only [sendChannel]
      split
      next => exact ⟨rfl, rfl⟩
      next e t' hsent =>
        rw [hsent] at hok
        cases hok

/-- What a poll tells if nothing is refused. -/
theorem poll_of_reliable (p : Publisher) (b : Board n) (root : Text Settings.rootCapacity)
    (hn : n < UInt64.size) {t : τ} (ht : Transport.Reliable t) :
    (p.poll b root.content t).publisher.onlinePending = false ∧
      (p.poll b root.content t).published = b.firstPending? ∧
      (p.poll b root.content t).board = b.markFirst := by
  obtain ⟨hconnected, hnext⟩ := ht.isConnected
  rw [poll]
  split
  next t' hlook =>
    rw [hlook] at hconnected
    cases hconnected
  next t' hlook =>
    rw [hlook] at hnext
    obtain ⟨honline, hnext'⟩ := p.pollOnline_of_reliable (Topic.exists_will root) hnext
    exact ⟨honline, pollChannel_of_reliable root hn hnext'⟩

end Publisher

namespace Subscription

variable {τ : Type} [Transport τ]

theorem reliable_subscribe (root : String) (subjects : List Subject) {t : τ}
    (ht : Transport.Reliable t) : Transport.Reliable (subscribe root subjects t).2 := by
  induction subjects generalizing t with
  | nil => exact ht
  | cons s rest ih =>
      rw [subscribe]
      split
      next => exact ih ht
      next filter _ =>
        have hnext := (ht.subscribe filter).2
        split
        all_goals
          next t' hsent =>
            rw [hsent] at hnext
            exact ih hnext

theorem reliable_subscribe_group (g : Group) (root : String) {t : τ}
    (ht : Transport.Reliable t) : Transport.Reliable (g.subscribe root t).2 := by
  have hnext := ht.isConnected.2
  rw [Group.subscribe]
  split
  next t' hlook =>
    rw [hlook] at hnext
    exact hnext
  next t' hlook =>
    rw [hlook] at hnext
    exact reliable_subscribe root g.subjects hnext

theorem reliable_meet (now : Instant) (root : String) (appointments : List Appointment) {t : τ}
    (ht : Transport.Reliable t) : Transport.Reliable (meet now root appointments t).2.2 := by
  induction appointments generalizing t with
  | nil => exact ht
  | cons a rest ih =>
      rw [meet]
      split
      · exact ih (reliable_subscribe_group a.group root ht)
      · exact ih ht

/-- An appointment is forgotten when its time has come, whatever becomes of it. -/
theorem meet_fst (now : Instant) (root : String) (appointments : List Appointment) (t : τ) :
    (meet now root appointments t).1 = appointments.filter fun a => decide (¬ a.time ≤ now) := by
  induction appointments generalizing t with
  | nil => rfl
  | cons a rest ih =>
      rw [meet]
      split
      next hdue =>
        rw [List.filter_cons_of_neg (by simp [hdue])]
        exact ih _
      next hlater =>
        rw [List.filter_cons_of_pos (by simp [hlater])]
        exact congrArg (List.cons a) (ih t)

theorem Plan.poll_of_not_isPending {p : Plan} (h : p.isPending = false) (now : Instant)
    (root : String) (t : τ) : p.poll now root t = ⟨p, t, 0⟩ := by
  obtain ⟨appointments⟩ := p
  cases appointments with
  | nil => rfl
  | cons a rest => cases h

end Subscription

end Luminaire
