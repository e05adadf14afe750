import Luminaire.Proofs.Broker.Store

/-!
# Values keep to their topics

A topic is written piece by piece, and the room for it may end in any of the pieces. What has been
written by then is given up: there is a topic exactly if there is room for its whole text, and it is
that text (`Topic.isWhole_build`). A cut topic could be the topic of another value. A whole one is
not: it can be read back, so that it stands for one value of one channel, and its second segment
keeps it apart from the presence message and from all commands. So a broker that is told of one
channel keeps what it knows of the others.
-/

namespace Luminaire

namespace Topic

/-- There is a topic if there is room for all of the text, and it has that text. -/
structure IsWhole (text : String) (answer : Except CapacityError Topic) : Prop where
  isOk_iff : answer.isOk = true ↔ text.utf8ByteSize ≤ 64
  content_eq : ∀ topic, answer = .ok topic → topic.content = text

theorem isWhole_build (pieces : List String) : IsWhole (String.join pieces) (build pieces) where
  isOk_iff := by
    cases h : build pieces with
    | error e =>
        have hlong : 64 < (String.join pieces).utf8ByteSize := (build_eq_error_iff pieces e).1 h
        simp [Except.isOk, Except.toBool, hlong]
    | ok topic =>
        have hfits : topic.content.utf8ByteSize ≤ 64 := topic.fits
        rw [← (build_eq_ok_iff pieces topic).1 h] at hfits
        simp [Except.isOk, Except.toBool, hfits]
  content_eq := fun topic h => ((build_eq_ok_iff pieces topic).1 h).symm

theorem isWhole_state (root name : String) (number : Nat) :
    IsWhole (root ++ "/get/" ++ Nat.repr number ++ "/" ++ name) (state root number name) := by
  have hwhole := isWhole_build [root, getSegment, Nat.repr number, "/", name]
  rwa [join_state] at hwhole

theorem isWhole_commandFilter (root kind : String) :
    IsWhole (root ++ "/set/+/" ++ kind) (commandFilter root kind) := by
  have hwhole := isWhole_build [root, setSegment ++ "+/", kind]
  have hsegment : setSegment ++ "+/" = "/set/+/" := rfl
  rwa [join_triple, hsegment] at hwhole

theorem isWhole_strobe (root : String) : IsWhole (root ++ "/set/strobo") (strobe root) := by
  have hwhole := isWhole_build [root, strobeSuffix]
  rwa [join_pair] at hwhole

theorem isWhole_will (root : String) : IsWhole (root ++ "/status/lwt") (will root) := by
  have hwhole := isWhole_build [root, willSuffix]
  rwa [join_pair] at hwhole

/-- No value is reported under the topic of a command. -/
theorem content_ne_of_state {root name : String} {number : Nat} {topic : Topic}
    (h : state root number name = .ok topic) (rest : String) :
    topic.content ≠ root ++ "/set/" ++ rest := by
  intro hset
  have hlist : topic.content.toList = root.toList ++ ("/set/".toList ++ rest.toList) := by
    rw [hset]
    simp
  have htail := List.append_cancel_left (hlist.symm.trans (toList_of_state h))
  -- the segments begin with different letters
  have hsecond := congrArg (fun cs => cs[1]?) htail
  cases hsecond

end Topic

namespace Publisher

variable {τ : Type} [Transport τ]

/-- The topic belongs to another channel than the one of this number, or to the presence message. -/
def Elsewhere (root : String) (number : Nat) (topic : Topic) : Prop :=
  Topic.will root = .ok topic ∨
    ∃ number' name, number' ≠ number ∧ Topic.state root number' name = .ok topic

theorem store_sendChannel_of_elsewhere {root : String} {number : Nat} {topic : Topic}
    (h : Elsewhere root number topic) (c : Channel) (r : Recorded τ) :
    (sendChannel root number c r).2.store topic = r.store topic := by
  rcases store_sendAttributes root number c Attribute.all r topic with hsame | ⟨a, _, htopic, _⟩
  · exact hsame
  · rcases h with hwill | ⟨number', name, hother, hstate⟩
    · exact absurd htopic (Topic.will_ne_state hwill)
    · exact absurd (Topic.state_inj hstate htopic).1 hother

/-- Below a root, each topic that can be written is the whole of its text, and it can be written
exactly if the text has at most 64 bytes. The topic of a value determines the number of the channel
and the name of the value, whatever the name contains, and it is neither the topic of the presence
message nor that of a command. So what a broker keeps of other channels and of presence outlasts
every report of a channel, whether or not all of its messages are accepted. -/
theorem topics_whole_and_apart (root : String) :
    (∀ number name, Topic.IsWhole (root ++ "/get/" ++ Nat.repr number ++ "/" ++ name)
      (Topic.state root number name)) ∧
    (∀ kind, Topic.IsWhole (root ++ "/set/+/" ++ kind) (Topic.commandFilter root kind)) ∧
    Topic.IsWhole (root ++ "/set/strobo") (Topic.strobe root) ∧
    Topic.IsWhole (root ++ "/status/lwt") (Topic.will root) ∧
    (∀ number number' name name' topic, Topic.state root number name = .ok topic →
      Topic.state root number' name' = .ok topic → number = number' ∧ name = name') ∧
    (∀ number name topic, Topic.state root number name = .ok topic →
      Topic.will root ≠ .ok topic ∧ ∀ rest, topic.content ≠ root ++ "/set/" ++ rest) ∧
    ∀ number topic, Elsewhere root number topic → ∀ (c : Channel) (r : Recorded τ),
      (sendChannel root number c r).2.store topic = r.store topic := by
  refine ⟨fun number name => Topic.isWhole_state root name number,
    Topic.isWhole_commandFilter root, Topic.isWhole_strobe root, Topic.isWhole_will root,
    fun _ _ _ _ _ => Topic.state_inj, fun number name topic h => ⟨fun hwill => ?_,
    Topic.content_ne_of_state h⟩, fun _ _ => store_sendChannel_of_elsewhere⟩
  exact Topic.will_ne_state hwill h

end Publisher

end Luminaire
