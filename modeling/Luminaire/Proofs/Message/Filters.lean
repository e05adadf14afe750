import Luminaire.Proofs.Message.Reading
import Luminaire.Proofs.Message.Topics

/-!
# What is subscribed to is what is read

A node asks the broker for messages by patterns and reads what comes by a grammar, and the two are
written down in different places. They agree if every pattern stands for the topics of one subject,
and the subjects of the patterns are all that a command can be about. Then nothing that would be read
as a command is kept back by the broker, and whatever comes under a pattern is read as a command of
its subject or refused.

A pattern leaves the channel part of a topic open (`Topic.Fills`). The reader takes the channel part
only if it is a number or empty, so a message can match a pattern and not have the shape of a command
topic; no other message that matches has this fault.
-/

namespace Luminaire

namespace Topic

/-- A pattern of commands becomes a topic when a segment takes the place of its wildcard. A pattern
without a wildcard is a topic as it stands. -/
inductive Fills (root segment : String) : (filter topic : String) → Prop where
  | wildcard (word : String) :
      Fills root segment (root ++ "/set/" ++ "+" ++ "/" ++ word)
        (root ++ "/set/" ++ segment ++ "/" ++ word)
  | plain {word : String} (h : '+' ∉ word.toList) :
      Fills root segment (root ++ "/set/" ++ word) (root ++ "/set/" ++ word)

/-- A topic matches a pattern of commands if one segment, which may be empty, makes it of it. -/
def Matches (root filter topic : String) : Prop :=
  ∃ segment : String, '/' ∉ segment.toList ∧ Fills root segment filter topic

end Topic

namespace Subject

/-- The topic of commands about the subject. The strobe has no channel part. -/
def commandTopic (root segment : String) : Subject → String
  | kind k => root ++ "/set/" ++ segment ++ "/" ++ k.word
  | strobe => root ++ "/set/" ++ "strobo"

/-- The segment can be the channel part of a topic about the subject, if it has one: it is empty or
has one or two digits. -/
def Takes (segment : String) : Subject → Prop
  | kind _ => segment = "" ∨ Decimal.IsNumeral 2 segment.toList
  | strobe => True

theorem content_of_filter {root : String} {s : Subject} {filter : Topic}
    (h : s.filter root = .ok filter) : filter.content = root ++ s.suffix := by
  apply String.toList_injective
  rw [toList_of_filter h, String.toList_append]

theorem plus_notMem_strobe : '+' ∉ strobe.word.toList := by
  decide

/-- The topics that a pattern stands for are those of its subject. -/
theorem fills_iff {root segment topic : String} {s : Subject} {filter : Topic}
    (h : s.filter root = .ok filter) :
    Topic.Fills root segment filter.content topic ↔ topic = s.commandTopic root segment := by
  rw [content_of_filter h]
  constructor
  · intro hfills
    generalize hfilter : root ++ s.suffix = text at hfills
    have hchars := congrArg String.toList hfilter
    cases hfills with
    | wildcard word =>
        cases s with
        | kind k =>
            obtain rfl : k.word = word := by
              apply String.toList_injective
              simpa [suffix, Topic.setSegment] using hchars
            rfl
        | strobe => simp [suffix, Topic.strobeSuffix] at hchars
    | @plain word hplain =>
        cases s with
        | kind k =>
            have hword : word.toList = '+' :: '/' :: k.word.toList := by
              simpa [suffix, Topic.setSegment] using hchars.symm
            exact absurd (hword ▸ List.mem_cons_self) hplain
        | strobe =>
            obtain rfl : "strobo" = word := by
              apply String.toList_injective
              simpa [suffix, Topic.strobeSuffix] using hchars
            rfl
  · rintro rfl
    cases s with
    | kind k =>
        have hpattern : root ++ (kind k).suffix = root ++ "/set/" ++ "+" ++ "/" ++ k.word := by
          simp [suffix, Topic.setSegment, String.append_assoc]
        rw [hpattern]
        exact .wildcard k.word
    | strobe =>
        have hpattern : root ++ strobe.suffix = root ++ "/set/" ++ strobe.word := by
          rw [String.append_assoc]
          rfl
        rw [hpattern]
        exact .plain plus_notMem_strobe

end Subject

namespace Grammar

/-- What can become of a message whose topic has the shape of a command about the subject. -/
inductive Answer (s : Subject) : Except ParseError Command → Prop where
  | command {c : Command} (h : c.subject? = some s) : Answer s (.ok c)
  | channelOutOfRange (number : UInt8) : Answer s (.error (.channelOutOfRange number))
  | notUtf8 : Answer s (.error .notUtf8)
  | invalidPayload : Answer s (.error (.invalidPayload s))

theorem exists_segment_iff (segment : String) :
    (∃ number, Segment segment number) ↔
      segment = "" ∨ Decimal.IsNumeral 2 segment.toList := by
  constructor
  · rintro ⟨number, h⟩
    cases h with
    | omitted => exact Or.inl rfl
    | numeral h _ => exact Or.inr h
  · rintro (rfl | h)
    · exact ⟨0, .omitted⟩
    · have hlt := h.value_lt
      obtain ⟨number, hnumber⟩ := Decimal.exists_toNat_eq
        (show Decimal.numeralValue segment.toList ≤ 255 by omega)
      exact ⟨number, .numeral h hnumber.symm⟩

theorem subject?_of_payload {d : Destination} {kind : Kind} {text : String} {command : Command}
    (h : Payload d kind text command) : command.subject? = some (.kind kind) := by
  cases h <;> rfl

theorem answer_of_channelMessage {d : Destination} {payload : ByteArray} {kind : Kind}
    {result : Except ParseError Command} (h : ChannelMessage d payload kind result) :
    Answer (.kind kind) result := by
  cases h with
  | random => exact .command rfl
  | notUtf8 _ _ => exact .notUtf8
  | illFormed _ _ => exact .invalidPayload
  | wellFormed _ h => exact .command (subject?_of_payload h)

theorem answer_of_strobeMessage {payload : ByteArray} {result : Except ParseError Command}
    (h : StrobeMessage payload result) : Answer .strobe result := by
  cases h with
  | notUtf8 _ => exact .notUtf8
  | empty _ => exact .command rfl
  | illFormed _ _ _ => exact .invalidPayload
  | level _ _ _ => exact .command rfl

end Grammar

namespace Command

theorem answer_ofSegments {segment : String} {number : UInt8}
    (h : Grammar.Segment segment number) (count : Nat) (k : Kind) (payload : ByteArray) :
    Grammar.Answer (.kind k) (ofSegments count segment.toList k.word.toList payload) := by
  have hnumber := (channelNumber?_eq_some_iff segment number).2 h
  have hword := (Kind.ofWord?_eq_some_iff k.word k).2 rfl
  cases hd : Destination.ofNumber? number count with
  | none =>
      simp only [ofSegments, hnumber, hd]
      exact .channelOutOfRange number
  | some d =>
      obtain ⟨result, hresult⟩ := Grammar.exists_channelMessage d payload k
      simp only [ofSegments, hnumber, hd, hword, ofPayload_of_channelMessage hresult]
      exact Grammar.answer_of_channelMessage hresult

/-- A message under a topic of a subject is about that subject, unless its channel part is not what
the subject takes. -/
theorem answer_parse (root : String) (count : Nat) (payload : ByteArray) {s : Subject}
    {segment : String} (hslash : '/' ∉ segment.toList) (h : s.Takes segment) :
    Grammar.Answer s (parse root count (s.commandTopic root segment) payload) := by
  cases s with
  | kind k =>
      obtain ⟨number, hsegment⟩ := (Grammar.exists_segment_iff segment).2 h
      rw [Subject.commandTopic, parse_channel _ _ _ _ _ hslash]
      exact answer_ofSegments hsegment count k payload
  | strobe =>
      obtain ⟨result, hresult⟩ := Grammar.exists_strobeMessage payload
      rw [Subject.commandTopic, parse_strobe, ofStrobePayload_of_strobeMessage hresult]
      exact Grammar.answer_of_strobeMessage hresult

theorem parse_of_not_takes (root : String) (count : Nat) (payload : ByteArray) {s : Subject}
    {segment : String} (hslash : '/' ∉ segment.toList) (h : ¬ s.Takes segment) :
    parse root count (s.commandTopic root segment) payload = .error .topicMismatch := by
  cases s with
  | kind k =>
      have hnone : channelNumber? segment.toList = none := by
        rw [Option.eq_none_iff_forall_ne_some]
        intro number hnumber
        exact h ((Grammar.exists_segment_iff segment).1
          ⟨number, (channelNumber?_eq_some_iff segment number).1 hnumber⟩)
      rw [Subject.commandTopic, parse_channel _ _ _ _ _ hslash, ofSegments, hnone]
  | strobe => exact absurd trivial h

/-- A command that is read under a topic of a subject is about that subject. -/
theorem subject?_of_parse {root : String} {count : Nat} {payload : ByteArray} {s : Subject}
    {segment : String} (hslash : '/' ∉ segment.toList) {command : Command}
    (h : parse root count (s.commandTopic root segment) payload = .ok command) :
    command.subject? = some s := by
  by_cases htakes : s.Takes segment
  · have hanswer := answer_parse root count payload hslash htakes
    rw [h] at hanswer
    cases hanswer with
    | command hsubject => exact hsubject
  · rw [parse_of_not_takes root count payload hslash htakes] at h
    cases h

/-- Whatever is read as a command of a known subject came under a topic of that subject. -/
theorem exists_commandTopic {root topic : String} {count : Nat} {payload : ByteArray}
    {command : Command} (h : parse root count topic payload = .ok command)
    (hknown : command ≠ .unrecognized) :
    ∃ (s : Subject) (segment : String), '/' ∉ segment.toList ∧
      topic = s.commandTopic root segment := by
  have hmessage := message_parse root topic count payload
  rw [h] at hmessage
  cases hmessage with
  | strobe htopic _ => exact ⟨.strobe, "", by simp, htopic⟩
  | unknown _ _ _ _ => exact absurd rfl hknown
  | @known segment _ kind _ _ htopic hsegment _ _ =>
      exact ⟨.kind kind, segment, Grammar.slash_notMem_segment hsegment, htopic⟩

end Command

namespace Subscription

/-- All that a node subscribes to. -/
def subjects : List Subject := groups.flatMap Group.subjects

theorem mem_subjects (s : Subject) : s ∈ subjects := by
  cases s with
  | kind k => cases k <;> decide
  | strobe => decide

/-- A message that is read as a command of a known subject matches the pattern for that subject and no
other. A topic that a pattern stands for is read as a command of its subject or refused for a reason
that is not the kind of the command. -/
theorem patterns_agree (root : String) (filter : Subject → Topic)
    (hfilter : ∀ s ∈ subjects, s.filter root = .ok (filter s)) (count : Nat) (payload : ByteArray) :
    (∀ topic command, Command.parse root count topic payload = .ok command →
      command ≠ .unrecognized →
      ∃ s ∈ subjects, command.subject? = some s ∧
        ∀ s' ∈ subjects, Topic.Matches root (filter s').content topic ↔ s' = s) ∧
    ∀ s ∈ subjects, ∀ segment topic, '/' ∉ segment.toList →
      Topic.Fills root segment (filter s).content topic →
      (s.Takes segment → Grammar.Answer s (Command.parse root count topic payload)) ∧
      (¬ s.Takes segment → Command.parse root count topic payload = .error .topicMismatch) := by
  refine ⟨fun topic command hparse hknown => ?_, fun s hs segment topic hslash hfills => ?_⟩
  · obtain ⟨s, segment, hslash, rfl⟩ := Command.exists_commandTopic hparse hknown
    have hsubject := Command.subject?_of_parse hslash hparse
    refine ⟨s, mem_subjects s, hsubject, fun s' hs' => ⟨?_, ?_⟩⟩
    · rintro ⟨segment', hslash', hfills⟩
      rw [(Subject.fills_iff (hfilter s' hs')).1 hfills] at hparse
      have hsubject' := Command.subject?_of_parse hslash' hparse
      exact Option.some.inj (hsubject'.symm.trans hsubject)
    · rintro rfl
      exact ⟨segment, hslash, (Subject.fills_iff (hfilter s' hs')).2 rfl⟩
  · obtain rfl := (Subject.fills_iff (hfilter s hs)).1 hfills
    exact ⟨Command.answer_parse root count payload hslash,
      Command.parse_of_not_takes root count payload hslash⟩

/-- A broadcast of a mode matches one pattern. A channel part with a letter fills the same pattern
and makes no command topic. -/
theorem patterns_agree_hall :
    ∃ filter : Subject → Topic, (∀ s ∈ subjects, s.filter "hall" = .ok (filter s)) ∧
      (∀ s ∈ subjects, Topic.Matches "hall" (filter s).content "hall/set//mode" ↔
        s = .kind .mode) ∧
      Topic.Fills "hall" "x7" (filter (.kind .mode)).content "hall/set/x7/mode" ∧
      Command.parse "hall" 3 "hall/set/x7/mode" "1".toUTF8 = .error .topicMismatch := by
  have hfilter := Subject.filter_eq_ok_pattern ⟨"hall", by decide⟩
  have hfills : Topic.Fills "hall" "x7" ((Subject.kind .mode).pattern ⟨"hall", by decide⟩).content
      "hall/set/x7/mode" :=
    (Subject.fills_iff (hfilter (.kind .mode))).2 (by decide)
  obtain ⟨hread, hfilled⟩ :=
    patterns_agree "hall" _ (fun s _ => hfilter s) 3 "1".toUTF8
  have hbroadcast : Command.parse "hall" 3 "hall/set//mode" "1".toUTF8 = .ok (.mode .all .fade) := by
    decide +kernel
  obtain ⟨s, _, hsubject, hmatches⟩ := hread "hall/set//mode" _ hbroadcast (by decide)
  obtain rfl := Option.some.inj hsubject
  have hletter : ¬ (Subject.kind .mode).Takes "x7" := by
    rintro (hempty | hnumeral)
    · exact absurd hempty (by decide)
    · exact absurd (hnumeral.digits 'x' (by decide)) (by decide)
  have hrefused := (hfilled (.kind .mode) (mem_subjects _) "x7" "hall/set/x7/mode" (by decide)
    hfills).2 hletter
  exact ⟨_, fun s _ => hfilter s, hmatches, hfills, hrefused⟩

end Subscription

end Luminaire
