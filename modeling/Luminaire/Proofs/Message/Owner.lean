import Luminaire.Node.Basic
import Luminaire.Proofs.Message.Filters

/-!
# A topic commands one node

Roots are arbitrary texts, so the root of one node can extend that of another, and can hold `/set/`
itself. A reader strips its root from the left and cannot tell whether a topic was meant for it. But
what makes a message a known command is the end of its topic: the word for a subject holds no slash,
and neither does the channel part before it. Read from the right, a topic of commands thus gives
back its root, and no message is a known command to nodes with different roots.

What a node tells has another segment behind the root than a command, so a node that receives its
own messages takes none of them for a command.
-/

namespace Luminaire

/-- A list has only one cut at its last `x`. -/
theorem append_cons_inj_of_last {α : Type} [DecidableEq α] {x : α}
    {front front' back back' : List α} (hback : x ∉ back) (hback' : x ∉ back')
    (h : front ++ x :: back = front' ++ x :: back') :
    front = front' ∧ back = back' := by
  have hreverse : back.reverse ++ x :: front.reverse = back'.reverse ++ x :: front'.reverse := by
    simpa using congrArg List.reverse h
  have hcut := (cutAt?_eq_some_iff x _ back.reverse front.reverse).2 ⟨by simpa using hback, rfl⟩
  have hcut' := (cutAt?_eq_some_iff x _ back'.reverse front'.reverse).2
    ⟨by simpa using hback', hreverse⟩
  obtain ⟨hends, hfronts⟩ := Prod.mk.inj (Option.some.inj (hcut.symm.trans hcut'))
  exact ⟨List.reverse_injective hfronts, List.reverse_injective hends⟩

namespace Subject

theorem slash_notMem_word (s : Subject) : '/' ∉ s.word.toList := by
  cases s with
  | kind k => cases k <;> decide
  | strobe => decide

theorem word_injective : Function.Injective word := by
  intro a b h
  cases a with
  | kind k =>
      cases b with
      | kind k' => exact congrArg kind (Kind.word_injective h)
      | strobe => cases k <;> exact absurd h (by decide)
  | strobe =>
      cases b with
      | kind k => cases k <;> exact absurd h (by decide)
      | strobe => rfl

/-- What stands before the last slash in a topic of commands. -/
def stem (root segment : String) : Subject → List Char
  | kind _ => root.toList ++ "/set".toList ++ '/' :: segment.toList
  | strobe => root.toList ++ "/set".toList

theorem toList_commandTopic (root segment : String) (s : Subject) :
    (s.commandTopic root segment).toList = s.stem root segment ++ '/' :: s.word.toList := by
  cases s with
  | kind k => simp [commandTopic, stem, word]
  | strobe => simp [commandTopic, stem, word]

theorem root_eq_of_stem {root root' segment segment' : String} {s : Subject}
    (hslash : '/' ∉ segment.toList) (hslash' : '/' ∉ segment'.toList)
    (h : s.stem root segment = s.stem root' segment') : root = root' := by
  apply String.toList_injective
  cases s with
  | kind k => exact List.append_cancel_right (append_cons_inj_of_last hslash hslash' h).1
  | strobe => exact List.append_cancel_right h

/-- A topic of commands determines the root, and what the commands are about. -/
theorem commandTopic_inj {root root' segment segment' : String} {s s' : Subject}
    (hslash : '/' ∉ segment.toList) (hslash' : '/' ∉ segment'.toList)
    (h : s.commandTopic root segment = s'.commandTopic root' segment') : root = root' ∧ s = s' := by
  have hlist := congrArg String.toList h
  rw [toList_commandTopic, toList_commandTopic] at hlist
  obtain ⟨hstem, hword⟩ :=
    append_cons_inj_of_last s.slash_notMem_word s'.slash_notMem_word hlist
  obtain rfl := word_injective (String.toList_injective hword)
  exact ⟨root_eq_of_stem hslash hslash' hstem, rfl⟩

end Subject

namespace Command

/-- Below the root, some message under the topic is a known command to some board. -/
def Heeds (root topic : String) : Prop :=
  ∃ count payload command, parse root count topic payload = .ok command ∧ command ≠ .unrecognized

theorem Heeds.root_eq {root root' topic : String} (h : Heeds root topic)
    (h' : Heeds root' topic) : root = root' := by
  obtain ⟨count, payload, command, hparse, hknown⟩ := h
  obtain ⟨count', payload', command', hparse', hknown'⟩ := h'
  obtain ⟨s, segment, hslash, htopic⟩ := exists_commandTopic hparse hknown
  obtain ⟨s', segment', hslash', htopic'⟩ := exists_commandTopic hparse' hknown'
  exact (Subject.commandTopic_inj hslash hslash' (htopic.symm.trans htopic')).1

/-- What does not go on with `/set/` behind the root has not the shape of a command topic. -/
theorem parse_of_not_set {root suffix : String} (count : Nat) (payload : ByteArray)
    (h : ∀ rest, suffix.toList ≠ "/set/".toList ++ rest) :
    parse root count (root ++ suffix) payload = .error .topicMismatch := by
  have hafter : afterSet? root (root ++ suffix) = none := by
    rw [Option.eq_none_iff_forall_ne_some]
    intro rest hrest
    have hlist := congrArg String.toList ((afterSet?_eq_some_iff _ _ _).1 hrest)
    rw [String.append_assoc, String.toList_append, String.toList_append] at hlist
    exact h rest (by simpa using List.append_cancel_left hlist)
  rw [parse, hafter]

theorem parse_state {root name : String} {number : Nat} {topic : Topic}
    (h : Topic.state root number name = .ok topic) (count : Nat) (payload : ByteArray) :
    parse root count topic.content payload = .error .topicMismatch := by
  have hcontent : topic.content = root ++ ("/get/" ++ number.repr ++ "/" ++ name) := by
    rw [← (Topic.build_eq_ok_iff _ _).1 h, Topic.join_state]
    simp only [Topic.getSegment, String.append_assoc]
  rw [hcontent]
  refine parse_of_not_set count payload fun rest hrest => ?_
  have hsecond := congrArg (fun cs => cs[1]?) hrest
  simp at hsecond

theorem parse_will {root : String} {topic : Topic} (h : Topic.will root = .ok topic) (count : Nat)
    (payload : ByteArray) : parse root count topic.content payload = .error .topicMismatch := by
  rw [← (Topic.build_eq_ok_iff _ _).1 h, Topic.join_pair]
  refine parse_of_not_set count payload fun rest hrest => ?_
  have hsecond := congrArg (fun cs => cs[2]?) hrest
  simp [Topic.willSuffix] at hsecond

end Command

namespace Node

variable {n : Nat} {η : Type} [HueSource η]

/-- A node carries out nothing that its root does not heed. -/
theorem receive_of_not_heeds {node : Node n η} {topic : String}
    (h : ¬ Command.Heeds node.root topic) (payload : ByteArray) (retained : Bool) :
    node.receive topic payload retained = (none, node) := by
  have hboard : node.board.receive node.hues node.root topic payload retained = none := by
    rw [Board.receive]
    split
    next => rfl
    next command hparse =>
      have hunknown : command = .unrecognized := by
        by_contra hknown
        exact h ⟨n, payload, command, hparse, hknown⟩
      rw [hunknown]
      rfl
  rw [receive, hboard]

end Node

namespace Command

/-- A topic has known commands for one root at most, so of two nodes with different roots one
ignores any message that the other carries out, whatever each of them received of it. What a node
tells of its channels and of its presence is no command to a node with the same root. -/
theorem topics_have_one_owner :
    (∀ topic root root', Heeds root topic → Heeds root' topic → root = root') ∧
    (∀ {m n : Nat} {η θ : Type} [HueSource η] [HueSource θ] (node : Node m η) (node' : Node n θ),
      node.root ≠ node'.root → ∀ topic payload payload' retained retained',
        node.receive topic payload retained = (none, node) ∨
          node'.receive topic payload' retained' = (none, node')) ∧
    ∀ root count payload,
      (∀ number name topic, Topic.state root number name = .ok topic →
        parse root count topic.content payload = .error .topicMismatch) ∧
      ∀ topic, Topic.will root = .ok topic →
        parse root count topic.content payload = .error .topicMismatch := by
  refine ⟨fun topic root root' h h' => h.root_eq h', ?_, fun root count payload => ⟨?_, ?_⟩⟩
  · intro m n η θ _ _ node node' hroots topic payload payload' retained retained'
    by_cases h : Heeds node.root topic
    · have h' : ¬ Heeds node'.root topic := fun h' => hroots (h.root_eq h')
      exact Or.inr (Node.receive_of_not_heeds h' payload' retained')
    · exact Or.inl (Node.receive_of_not_heeds h payload retained)
  · intro number name topic h
    exact parse_state h count payload
  · intro topic h
    exact parse_will h count payload

/-- One root extends the other by what looks like the start of a command. -/
theorem topics_have_one_owner_nested :
    Heeds "a/set/1" "a/set/1/set/1/switch" ∧ ¬ Heeds "a" "a/set/1/set/1/switch" ∧
      (∃ topic, Topic.state "a/set/1" 1 "set/1/switch" = .ok topic ∧
        parse "a/set/1" 1 topic.content "1".toUTF8 = .error .topicMismatch) ∧
      ∃ topic, Topic.will "a/set/1" = .ok topic ∧
        parse "a/set/1" 1 topic.content "1".toUTF8 = .error .topicMismatch := by
  obtain ⟨hroots, -, htold⟩ := topics_have_one_owner
  have hheeds : Heeds "a/set/1" "a/set/1/set/1/switch" :=
    ⟨1, "1".toUTF8, .switch (.channel 0) .on, by decide +kernel, by decide⟩
  refine ⟨hheeds, fun h => ?_, ⟨_, rfl, ?_⟩, ⟨_, rfl, ?_⟩⟩
  · exact absurd (hroots _ _ _ h hheeds) (by decide)
  · exact (htold "a/set/1" 1 "1".toUTF8).1 1 "set/1/switch" _ rfl
  · exact (htold "a/set/1" 1 "1".toUTF8).2 _ rfl

end Command

end Luminaire
