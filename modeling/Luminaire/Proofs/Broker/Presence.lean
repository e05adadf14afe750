import Luminaire.Proofs.Broker.Refusal

/-!
# Presence is told once for each connection

What has become of a publisher is written down as a row of marks: the connections it was told of and
the calls it made, in order. `Presence.Keeps` reads such a row as the run of a flag. A connection
raises the flag, a presence message is sent only while it is raised, and one that is accepted takes
it down; nothing else touches it. That the flag of a publisher runs like this is a fact about one
step (`keeps_step`). All that is said about the number of messages follows from the row alone: of
the flag and what was accepted there is never more than there were connections (`Keeps.countP_le`).
-/

namespace Luminaire

namespace Call

/-- The call hands over the presence message under the topic `will`. -/
def announces (will : Topic) (c : Call) : Bool :=
  c.request = .publish will Publisher.onlineMessage Publisher.retain

/-- The call reports an attribute of a channel. -/
def Reports (root : String) (c : Call) : Prop :=
  ∃ number name topic payload, Topic.state root number name = .ok topic ∧
    c.request = .publish topic payload Publisher.retain

theorem announces_iff (will : Topic) (c : Call) :
    c.announces will = true ↔
      c.request = .publish will Publisher.onlineMessage Publisher.retain := by
  simp [announces]

theorem Reports.not_announces {root : String} {will : Topic} {c : Call} (h : c.Reports root)
    (hwill : Topic.will root = .ok will) : c.announces will = false := by
  rw [Bool.eq_false_iff, Ne, announces_iff]
  obtain ⟨number, name, topic, payload, htopic, hrequest⟩ := h
  intro hpresence
  obtain ⟨rfl, -, -⟩ := Request.publish.inj (hrequest.symm.trans hpresence)
  exact Topic.will_ne_state hwill htopic

end Call

namespace Publisher

variable {n : Nat} {τ : Type} [Transport τ]

/-- A message whose topic fits is handed over in one call, and is sent if the call is accepted. -/
theorem exists_call_send (topic : Topic) (payload : String) (r : Recorded τ) :
    ∃ c : Call, c.request = .publish topic payload retain ∧
      (send (.ok topic) payload r).2.calls = r.calls ++ [c] ∧
      (send (.ok topic) payload r).1.isOk = c.accepted := by
  refine ⟨⟨.publish topic payload retain, (Transport.isConnected r.transport).1,
    (Transport.publish r.transport topic payload retain).1⟩, rfl, ?_, ?_⟩
  · rw [send]
    split
    next r' hsent => exact (congrArg (fun sent => sent.2.calls) hsent).symm
    next e r' hsent => exact (congrArg (fun sent => sent.2.calls) hsent).symm
  · rw [send, Call.accepted]
    split
    next r' hsent => exact (congrArg (fun sent => sent.1.isOk) hsent).symm
    next e r' hsent => exact (congrArg (fun sent => sent.1.isOk) hsent).symm

/-- A round about a channel does nothing but report. -/
theorem exists_calls_sendAttributes (root : String) (number : Nat) (channel : Channel)
    (as : List Attribute) (r : Recorded τ) :
    ∃ calls : List Call, (sendAttributes root number channel as r).2.calls = r.calls ++ calls ∧
      ∀ c ∈ calls, c.Reports root := by
  induction as generalizing r with
  | nil => exact ⟨[], by simp, by simp⟩
  | cons a rest ih =>
      rw [sendAttributes_cons]
      cases htopic : Topic.state root number a.word with
      | error e => exact ⟨[], by simp [send], by simp⟩
      | ok topic =>
          obtain ⟨c, hrequest, hcalls, -⟩ := exists_call_send topic (a.report channel) r
          have hreports : c.Reports root := ⟨number, a.word, topic, _, htopic, hrequest⟩
          split
          next r' hsent =>
            rw [hsent] at hcalls
            obtain ⟨later, hlater, hall⟩ := ih r'
            refine ⟨c :: later, ?_, List.forall_mem_cons.2 ⟨hreports, hall⟩⟩
            rw [hlater, hcalls, List.append_assoc]
            rfl
          next e r' hsent =>
            rw [hsent] at hcalls
            exact ⟨[c], hcalls, by simpa using hreports⟩

/-- A round about a channel begins with its first attribute. -/
theorem exists_calls_sendAttributes_cons {root : String} {number : Nat} {a : Attribute}
    {topic : Topic} (htopic : Topic.state root number a.word = .ok topic) (channel : Channel)
    (rest : List Attribute) (r : Recorded τ) :
    ∃ c later, (sendAttributes root number channel (a :: rest) r).2.calls = r.calls ++ c :: later ∧
      c.request = .publish topic (a.report channel) retain := by
  obtain ⟨c, hrequest, hcalls, -⟩ := exists_call_send topic (a.report channel) r
  rw [sendAttributes_cons, htopic]
  split
  next r' hsent =>
    rw [hsent] at hcalls
    obtain ⟨later, hlater, -⟩ := exists_calls_sendAttributes root number channel rest r'
    refine ⟨c, later, ?_, hrequest⟩
    rw [hlater, hcalls, List.append_assoc]
    rfl
  next e r' hsent =>
    rw [hsent] at hcalls
    exact ⟨c, [], hcalls, hrequest⟩

theorem calls_pollChannel (b : Board n) (root : String) (r : Recorded τ) :
    (pollChannel b root r).2.2.calls =
      match b.firstPending? with
      | none => r.calls
      | some i => (sendChannel root (i + 1) (b.channels.get i) r).2.calls := by
  rw [pollChannel]
  cases b.firstPending? with
  | none => rfl
  | some i =>
      simp only
      split
      next r' hsent => exact (congrArg (fun sent => sent.2.calls) hsent).symm
      next e r' hsent => exact (congrArg (fun sent => sent.2.calls) hsent).symm

theorem exists_calls_pollChannel (b : Board n) (root : String) (r : Recorded τ) :
    ∃ calls : List Call, (pollChannel b root r).2.2.calls = r.calls ++ calls ∧
      ∀ c ∈ calls, c.Reports root := by
  rw [calls_pollChannel]
  cases b.firstPending? with
  | none => exact ⟨[], by simp, by simp⟩
  | some i => exact exists_calls_sendAttributes root (i + 1) (b.channels.get i) Attribute.all r

/-- Of a channel that is pending the color is told first. -/
theorem exists_calls_pollChannel_cons {b : Board n} {i : Fin n} (hi : b.firstPending? = some i)
    {root : String} {topic : Topic}
    (htopic : Topic.state root (i + 1) Attribute.color.word = .ok topic) (r : Recorded τ) :
    ∃ c later, (pollChannel b root r).2.2.calls = r.calls ++ c :: later ∧
      c.request = .publish topic (Attribute.color.report (b.channels.get i)) retain := by
  rw [calls_pollChannel, hi]
  exact exists_calls_sendAttributes_cons htopic (b.channels.get i) Attribute.all.tail r

/-- While presence is due it is told in one call, and stays due unless the call is accepted. -/
theorem exists_call_pollOnline {p : Publisher} (hp : p.onlinePending = true) {root : String}
    {will : Topic} (hwill : Topic.will root = .ok will) (r : Recorded τ) :
    ∃ c : Call, c.announces will = true ∧ (p.pollOnline root r).2.calls = r.calls ++ [c] ∧
      (p.pollOnline root r).1.onlinePending = !c.accepted := by
  obtain ⟨c, hrequest, hcalls, hsent⟩ := exists_call_send will onlineMessage r
  refine ⟨c, (c.announces_iff will).2 hrequest, ?_⟩
  rw [pollOnline, if_pos hp, sendOnline, hwill]
  split
  next r' hok =>
    rw [hok] at hcalls hsent
    exact ⟨hcalls, by rw [← hsent]; rfl⟩
  next e r' herror =>
    rw [herror] at hcalls hsent
    exact ⟨hcalls, by rw [← hsent, hp]; rfl⟩

theorem poll_of_unconnected {t : τ} (h : (Transport.isConnected t).1 = false) (p : Publisher)
    (b : Board n) (root : String) :
    p.poll b root t = ⟨p, b, (Transport.isConnected t).2, none⟩ := by
  rw [poll]
  split
  next t' hlook => rw [hlook]
  next t' hlook =>
    rw [hlook] at h
    cases h

/-- On a connection a poll tells presence and then a channel, whatever becomes of the first. -/
theorem poll_of_connected {t : τ} (h : (Transport.isConnected t).1 = true) (p : Publisher)
    (b : Board n) (root : String) :
    p.poll b root t =
      let told := p.pollOnline root (Transport.isConnected t).2
      let round := pollChannel b root told.2
      ⟨told.1, round.2.1, round.2.2, round.1⟩ := by
  rw [poll]
  split
  next t' hlook =>
    rw [hlook] at h
    cases h
  next t' hlook => rw [hlook]

end Publisher

namespace Presence

/-- A mark in the history of a publisher. -/
inductive Mark where
  /-- It was told of a connection. -/
  | connected
  /-- It made a call. -/
  | call (c : Call)

namespace Mark

def isConnected : Mark → Bool
  | connected => true
  | call _ => false

/-- The presence message was accepted. -/
def isTold (will : Topic) : Mark → Bool
  | connected => false
  | call c => c.announces will && c.accepted

end Mark

/-- There was a connection after which no presence message has been accepted. -/
def Owed (will : Topic) (marks : List Mark) : Prop :=
  ∃ before later, marks = before ++ .connected :: later ∧
    ∀ mark ∈ later, mark.isTold will = false

theorem not_owed_nil (will : Topic) : ¬ Owed will [] := by
  rintro ⟨before, later, h, -⟩
  simp at h

theorem owed_cons (will : Topic) (mark : Mark) (rest : List Mark) :
    Owed will (mark :: rest) ↔
      mark = .connected ∧ (∀ mark ∈ rest, mark.isTold will = false) ∨ Owed will rest := by
  constructor
  · rintro ⟨before, later, h, hlater⟩
    rcases List.cons_eq_append_iff.1 h with ⟨rfl, heq⟩ | ⟨before', rfl, hrest⟩
    · obtain ⟨rfl, rfl⟩ := List.cons.inj heq
      exact Or.inl ⟨rfl, hlater⟩
    · exact Or.inr ⟨before', later, hrest, hlater⟩
  · rintro (⟨rfl, hrest⟩ | ⟨before, later, rfl, hlater⟩)
    · exact ⟨[], rest, rfl, hrest⟩
    · exact ⟨mark :: before, later, rfl, hlater⟩

/-- The marks lead the flag that presence is due from its first value to its second. -/
inductive Keeps (will : Topic) : Bool → List Mark → Bool → Prop where
  | nil (due : Bool) : Keeps will due [] due
  | connected {due due' : Bool} {rest : List Mark} (h : Keeps will true rest due') :
      Keeps will due (.connected :: rest) due'
  | announced {due' : Bool} {c : Call} {rest : List Mark} (hc : c.announces will = true)
      (h : Keeps will (!c.accepted) rest due') : Keeps will true (.call c :: rest) due'
  | other {due due' : Bool} {c : Call} {rest : List Mark} (hc : c.announces will = false)
      (h : Keeps will due rest due') : Keeps will due (.call c :: rest) due'

namespace Keeps

variable {will : Topic} {due due' due'' : Bool} {marks first second : List Mark}

theorem append (h : Keeps will due first due') (h' : Keeps will due' second due'') :
    Keeps will due (first ++ second) due'' := by
  induction h with
  | nil _ => exact h'
  | connected _ ih => exact .connected (ih h')
  | announced hc _ ih => exact .announced hc (ih h')
  | other hc _ ih => exact .other hc (ih h')

theorem of_append (h : Keeps will due (first ++ second) due'') :
    ∃ due', Keeps will due first due' ∧ Keeps will due' second due'' := by
  induction first generalizing due with
  | nil => exact ⟨due, .nil due, h⟩
  | cons mark rest ih =>
      cases h with
      | connected h =>
          obtain ⟨due', hfirst, hsecond⟩ := ih h
          exact ⟨due', .connected hfirst, hsecond⟩
      | announced hc h =>
          obtain ⟨due', hfirst, hsecond⟩ := ih h
          exact ⟨due', .announced hc hfirst, hsecond⟩
      | other hc h =>
          obtain ⟨due', hfirst, hsecond⟩ := ih h
          exact ⟨due', .other hc hfirst, hsecond⟩

theorem of_reports {root : String} (hwill : Topic.will root = .ok will) {calls : List Call}
    (h : ∀ c ∈ calls, c.Reports root) (due : Bool) : Keeps will due (calls.map .call) due := by
  induction calls with
  | nil => exact .nil due
  | cons c rest ih =>
      obtain ⟨hc, hrest⟩ := List.forall_mem_cons.1 h
      exact .other (hc.not_announces hwill) (ih hrest)

/-- Each accepted message uses up a connection, and so does a message that is still due. -/
theorem countP_le (h : Keeps will due marks due') :
    marks.countP (Mark.isTold will) + due'.toNat ≤
      marks.countP Mark.isConnected + due.toNat := by
  induction h with
  | nil due => simp
  | @connected due due' rest _ ih =>
      rw [List.countP_cons_of_neg (by simp [Mark.isTold]), List.countP_cons_of_pos rfl]
      rw [Bool.toNat_true] at ih
      omega
  | @announced due' c rest hc _ ih =>
      have hcall : ¬ Mark.isConnected (.call c) = true := by simp [Mark.isConnected]
      rw [List.countP_cons_of_neg hcall]
      cases haccepted : c.accepted with
      | true =>
          rw [List.countP_cons_of_pos (by simp [Mark.isTold, hc, haccepted])]
          simp only [haccepted, Bool.not_true, Bool.toNat_false] at ih
          simp only [Bool.toNat_true]
          omega
      | false =>
          rw [List.countP_cons_of_neg (by simp [Mark.isTold, haccepted])]
          simpa [haccepted] using ih
  | @other due due' c rest hc _ ih =>
      rw [List.countP_cons_of_neg (by simp [Mark.isTold, hc]),
        List.countP_cons_of_neg (by simp [Mark.isConnected])]
      exact ih

/-- Without a connection only a flag that was raised before can be used up. -/
theorem countP_le_of_unconnected (h : Keeps will due marks due')
    (hnone : ∀ mark ∈ marks, mark.isConnected = false) :
    marks.countP (Mark.isTold will) + due'.toNat ≤ due.toNat := by
  have hconnections : marks.countP Mark.isConnected = 0 :=
    List.countP_eq_zero.2 fun mark hmark => by simp [hnone mark hmark]
  have hcount := h.countP_le
  omega

/-- Before the first connection nothing is told. -/
theorem countP_front_eq_zero (h : Keeps will false (first ++ second) due')
    (hnone : ∀ mark ∈ first, mark.isConnected = false) : first.countP (Mark.isTold will) = 0 := by
  obtain ⟨due, hfirst, -⟩ := h.of_append
  have hcount := hfirst.countP_le_of_unconnected hnone
  rw [Bool.toNat_false] at hcount
  omega

/-- Between two connections presence is told at most once. -/
theorem countP_between_le_one {between : List Mark}
    (h : Keeps will due (first ++ (between ++ second)) due')
    (hnone : ∀ mark ∈ between, mark.isConnected = false) :
    between.countP (Mark.isTold will) ≤ 1 := by
  obtain ⟨due₁, -, hrest⟩ := h.of_append
  obtain ⟨due₂, hbetween, -⟩ := hrest.of_append
  have hcount := hbetween.countP_le_of_unconnected hnone
  have hflag := Bool.toNat_le due₁
  omega

/-- Presence is due exactly if it is owed to a connection, or was due at the start and has not been
told since. -/
theorem eq_true_iff (h : Keeps will due marks due') :
    due' = true ↔
      due = true ∧ (∀ mark ∈ marks, mark.isTold will = false) ∨ Owed will marks := by
  induction h with
  | nil due => simp [not_owed_nil]
  | connected _ ih =>
      rw [ih, owed_cons, List.forall_mem_cons]
      simp only [Mark.isTold, true_and]
      tauto
  | announced hc _ ih =>
      rw [ih, owed_cons, List.forall_mem_cons]
      simp [Mark.isTold, hc]
  | other hc _ ih =>
      rw [ih, owed_cons, List.forall_mem_cons]
      simp [Mark.isTold, hc]

end Keeps

/-- What is done with a publisher. Each poll brings the board and the transport it finds. -/
inductive Step (n : Nat) (τ : Type) where
  | connected
  | poll (b : Board n) (t : τ)

/-- A publisher and what has become of it, the oldest mark first. -/
structure History where
  publisher : Publisher
  marks : List Mark

namespace History

variable {n : Nat} {τ : Type} [Transport τ]

/-- Nothing has happened. -/
def start : History := ⟨Publisher.start, []⟩

/-- The poll of a publisher, with the calls on record. -/
def round (root : String) (h : History) (b : Board n) (t : τ) : Publisher.Round n (Recorded τ) :=
  h.publisher.poll b root ⟨t, []⟩

/-- The history after a step. -/
def step (root : String) (h : History) : Step n τ → History
  | .connected => ⟨h.publisher.onConnected, h.marks ++ [.connected]⟩
  | .poll b t =>
      ⟨(h.round root b t).publisher, h.marks ++ (h.round root b t).transport.calls.map .call⟩

/-- The history after some steps, the first one first. -/
def run (root : String) (h : History) (steps : List (Step n τ)) : History :=
  steps.foldl (step root) h

theorem run_cons (root : String) (h : History) (s : Step n τ) (rest : List (Step n τ)) :
    h.run root (s :: rest) = (h.step root s).run root rest := rfl

theorem round_of_unconnected (root : String) (h : History) (b : Board n) {t : τ}
    (hlook : (Transport.isConnected t).1 = false) :
    (h.round root b t).publisher = h.publisher ∧ (h.round root b t).transport.calls = [] := by
  rw [round, Publisher.poll_of_unconnected (t := (⟨t, []⟩ : Recorded τ)) hlook]
  exact ⟨rfl, rfl⟩

/-- With presence told a poll on a connection is all about a channel. -/
theorem round_of_told (root : String) {h : History} (htold : h.publisher.onlinePending = false)
    (b : Board n) {t : τ} (hlook : (Transport.isConnected t).1 = true) :
    (h.round root b t).publisher = h.publisher ∧
      ∀ c ∈ (h.round root b t).transport.calls, c.Reports root := by
  rw [round, Publisher.poll_of_connected (t := (⟨t, []⟩ : Recorded τ)) hlook,
    Publisher.pollOnline_of_told htold]
  obtain ⟨calls, hcalls, hreports⟩ := Publisher.exists_calls_pollChannel b root
    (⟨(Transport.isConnected t).2, []⟩ : Recorded τ)
  refine ⟨rfl, ?_⟩
  show ∀ c ∈ (Publisher.pollChannel b root
    (⟨(Transport.isConnected t).2, []⟩ : Recorded τ)).2.2.calls, c.Reports root
  rw [hcalls]
  exact hreports

/-- With presence due a poll on a connection tells it first, and goes on to a channel on the
transport that this leaves behind. -/
theorem round_of_due {root : String} {will : Topic} (hwill : Topic.will root = .ok will)
    {h : History} (hdue : h.publisher.onlinePending = true) (b : Board n) {t : τ}
    (hlook : (Transport.isConnected t).1 = true) :
    ∃ (c : Call) (r : Recorded τ), c.announces will = true ∧ r.calls = [c] ∧
      (h.round root b t).publisher.onlinePending = !c.accepted ∧
      ((h.round root b t).published, (h.round root b t).board, (h.round root b t).transport) =
        Publisher.pollChannel b root r := by
  obtain ⟨c, hc, hcalls, hflag⟩ := Publisher.exists_call_pollOnline hdue hwill
    (⟨(Transport.isConnected t).2, []⟩ : Recorded τ)
  refine ⟨c, _, hc, hcalls, ?_⟩
  rw [round, Publisher.poll_of_connected (t := (⟨t, []⟩ : Recorded τ)) hlook]
  exact ⟨hflag, rfl⟩

/-- With presence due the first call of a poll on a connection is the presence message, and the
others are about a channel. -/
theorem exists_calls_of_due {root : String} {will : Topic} (hwill : Topic.will root = .ok will)
    {h : History} (hdue : h.publisher.onlinePending = true) (b : Board n) {t : τ}
    (hlook : (Transport.isConnected t).1 = true) :
    ∃ (c : Call) (later : List Call), (h.round root b t).transport.calls = c :: later ∧
      c.announces will = true ∧ (h.round root b t).publisher.onlinePending = !c.accepted ∧
      ∀ c ∈ later, c.Reports root := by
  obtain ⟨c, r, hc, hr, hflag, hround⟩ := round_of_due hwill hdue b hlook
  obtain ⟨later, hlater, hreports⟩ := Publisher.exists_calls_pollChannel b root r
  rw [← hround, hr] at hlater
  exact ⟨c, later, hlater, hc, hflag, hreports⟩

/-- A poll begins with the presence message, if it is due and there is a connection, and then is
about a channel. -/
theorem exists_calls_round {root : String} {will : Topic} (hwill : Topic.will root = .ok will)
    (h : History) (b : Board n) (t : τ) :
    ∃ online channel : List Call, (h.round root b t).transport.calls = online ++ channel ∧
      online.map Call.request =
        (if (Transport.isConnected t).1 && h.publisher.onlinePending then
          [.publish will Publisher.onlineMessage Publisher.retain]
        else []) ∧
      ∀ c ∈ channel, c.Reports root := by
  cases hlook : (Transport.isConnected t).1 with
  | false =>
      obtain ⟨-, hcalls⟩ := h.round_of_unconnected root b hlook
      exact ⟨[], [], hcalls, rfl, by simp⟩
  | true =>
      cases hdue : h.publisher.onlinePending with
      | false => exact ⟨[], _, rfl, rfl, (round_of_told root hdue b hlook).2⟩
      | true =>
          obtain ⟨c, later, hcalls, hc, -, hreports⟩ := exists_calls_of_due hwill hdue b hlook
          exact ⟨[c], later, hcalls, by simpa using (c.announces_iff will).1 hc, hreports⟩

theorem keeps_round {root : String} {will : Topic} (hwill : Topic.will root = .ok will)
    (h : History) (b : Board n) (t : τ) :
    Keeps will h.publisher.onlinePending ((h.round root b t).transport.calls.map .call)
      (h.round root b t).publisher.onlinePending := by
  cases hlook : (Transport.isConnected t).1 with
  | false =>
      obtain ⟨hpublisher, hcalls⟩ := h.round_of_unconnected root b hlook
      rw [hpublisher, hcalls]
      exact .nil _
  | true =>
      cases hdue : h.publisher.onlinePending with
      | false =>
          obtain ⟨hpublisher, hreports⟩ := round_of_told root hdue b hlook
          rw [hpublisher, hdue]
          exact .of_reports hwill hreports false
      | true =>
          obtain ⟨c, later, hcalls, hc, hflag, hreports⟩ :=
            exists_calls_of_due hwill hdue b hlook
          rw [hflag, hcalls]
          exact .announced hc (.of_reports hwill hreports _)

theorem keeps_step {root : String} {will : Topic} (hwill : Topic.will root = .ok will)
    {h : History} (hkeeps : Keeps will false h.marks h.publisher.onlinePending) (s : Step n τ) :
    Keeps will false (h.step root s).marks (h.step root s).publisher.onlinePending := by
  cases s with
  | connected => exact hkeeps.append (.connected (.nil true))
  | poll b t => exact hkeeps.append (keeps_round hwill h b t)

theorem keeps_run {root : String} {will : Topic} (hwill : Topic.will root = .ok will) {h : History}
    (hkeeps : Keeps will false h.marks h.publisher.onlinePending) (steps : List (Step n τ)) :
    Keeps will false (h.run root steps).marks (h.run root steps).publisher.onlinePending := by
  induction steps generalizing h with
  | nil => exact hkeeps
  | cons s rest ih =>
      rw [run_cons]
      exact ih (keeps_step hwill hkeeps s)

end History

/-- After every step presence is due exactly if it is owed to a connection. A poll attempts it first
and once, if it is due and there is a connection, and not otherwise. No more presence messages are
accepted than there were connections, none before the first one, and at most one between two of
them. After the message the poll goes on to a channel whatever came of it, and if it was refused,
the next poll on a connection begins with it again. -/
theorem presence_told_once {n : Nat} {τ : Type} [Transport τ] (root : String) (will : Topic)
    (hwill : Topic.will root = .ok will) (steps : List (Step n τ)) :
    let h := History.start.run root steps
    (h.publisher.onlinePending = true ↔ Owed will h.marks) ∧
    (∀ (b : Board n) (t : τ), ∃ online channel : List Call,
      (h.round root b t).transport.calls = online ++ channel ∧
      online.map Call.request =
        (if (Transport.isConnected t).1 && h.publisher.onlinePending then
          [.publish will Publisher.onlineMessage Publisher.retain]
        else []) ∧
      ∀ c ∈ channel, c.Reports root ∧ c.announces will = false) ∧
    h.marks.countP (Mark.isTold will) ≤ h.marks.countP Mark.isConnected ∧
    (∀ before later, h.marks = before ++ later →
      (∀ mark ∈ before, mark.isConnected = false) → before.countP (Mark.isTold will) = 0) ∧
    (∀ before between later, h.marks = before ++ (between ++ later) →
      (∀ mark ∈ between, mark.isConnected = false) → between.countP (Mark.isTold will) ≤ 1) ∧
    ∀ (b : Board n) (t : τ), (Transport.isConnected t).1 = true →
      h.publisher.onlinePending = true →
      ∃ (c : Call) (r : Recorded τ), c.announces will = true ∧ r.calls = [c] ∧
        ((h.round root b t).published, (h.round root b t).board, (h.round root b t).transport) =
          Publisher.pollChannel b root r ∧
        (∀ i topic, b.firstPending? = some i →
          Topic.state root (i + 1) Attribute.color.word = .ok topic →
          ∃ c' later, (h.round root b t).transport.calls = c :: c' :: later ∧
            c'.request =
              .publish topic (Attribute.color.report (b.channels.get i)) Publisher.retain) ∧
        (c.accepted = false → ∀ (b' : Board n) (t' : τ), (Transport.isConnected t').1 = true →
          ∃ c' later, ((h.step root (.poll b t)).round root b' t').transport.calls = c' :: later ∧
            c'.announces will = true) := by
  intro h
  have hkeeps : Keeps will false h.marks h.publisher.onlinePending :=
    History.keeps_run hwill (.nil false) steps
  refine ⟨?_, fun b t => ?_, ?_, fun before later hmarks hnone => ?_,
    fun before between later hmarks hnone => ?_, fun b t hlook hdue => ?_⟩
  · simpa using hkeeps.eq_true_iff
  · obtain ⟨online, channel, hcalls, honline, hreports⟩ := h.exists_calls_round hwill b t
    exact ⟨online, channel, hcalls, honline,
      fun c hc => ⟨hreports c hc, (hreports c hc).not_announces hwill⟩⟩
  · have hcount := hkeeps.countP_le
    simp only [Bool.toNat_false] at hcount
    omega
  · rw [hmarks] at hkeeps
    exact hkeeps.countP_front_eq_zero hnone
  · rw [hmarks] at hkeeps
    exact hkeeps.countP_between_le_one hnone
  · obtain ⟨c, r, hc, hr, hflag, hround⟩ := History.round_of_due hwill hdue b hlook
    refine ⟨c, r, hc, hr, hround, fun i topic hi htopic => ?_, fun hrefused b' t' hlook' => ?_⟩
    · obtain ⟨c', later, hcalls, hrequest⟩ :=
        Publisher.exists_calls_pollChannel_cons hi htopic r
      rw [← hround, hr] at hcalls
      exact ⟨c', later, hcalls, hrequest⟩
    · have hdue' : (h.step root (.poll b t)).publisher.onlinePending = true := by
        rw [hrefused] at hflag
        exact hflag
      obtain ⟨c', later, hcalls, hc', -, -⟩ :=
        History.exists_calls_of_due hwill hdue' b' hlook'
      exact ⟨c', later, hcalls, hc'⟩

/-- The first presence message finds no room, and the second is accepted. -/
theorem presence_told_once_hall :
    ∃ will, Topic.will "hall" = .ok will ∧
      let b := (Board.powerUp 1 : Board 1)
      let refused := History.start.run "hall" ([.connected, .poll b ⟨0⟩] : List (Step 1 Crowded))
      let told := refused.step "hall" (.poll b ⟨1⟩ : Step 1 Crowded)
      refused.publisher.onlinePending = true ∧ Owed will refused.marks ∧
        told.publisher.onlinePending = false ∧ told.marks.countP (Mark.isTold will) = 1 ∧
        told.marks.countP Mark.isConnected = 1 ∧ ¬ Owed will told.marks := by
  refine ⟨_, rfl, ?_⟩
  intro b refused told
  obtain ⟨hdue, -⟩ := presence_told_once "hall" _ rfl
    ([.connected, .poll b ⟨0⟩] : List (Step 1 Crowded))
  obtain ⟨hdue', -⟩ := presence_told_once "hall" _ rfl
    ([.connected, .poll b ⟨0⟩, .poll b ⟨1⟩] : List (Step 1 Crowded))
  have hrefused : refused.publisher.onlinePending = true := by decide +kernel
  have htold : told.publisher.onlinePending = false := by decide +kernel
  refine ⟨hrefused, hdue.1 hrefused, htold, by decide +kernel, by decide +kernel, fun howed => ?_⟩
  exact absurd (hdue'.2 howed) (Bool.eq_false_iff.1 htold)

end Presence

end Luminaire
