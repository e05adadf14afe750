import Luminaire.Message.Grammar
import Luminaire.Proofs.Text.Numerals
import Mathlib.Data.List.Basic

/-!
# Messages follow the grammar

The reader of messages works from left to right and reports the first fault it meets. Here the same
language is written down the other way round, as the messages that there are: `Grammar.Message`
has one rule for each shape of a message and says what it means, a command or the reason why it is
none. The rules do not mention an order. Which fault is reported follows from what they ask of the
parts that come earlier: a rule about the payload asks for a channel that exists, and a rule about
the channel number for a topic of the right shape.

Two facts join the two. The reader finds what the rules say (`parse_of_message`), and the rules say
something about every message (`exists_message`); so no message has two meanings, and none has one
that the reader does not find.
-/

namespace Luminaire

namespace Grammar

/-- The channel part of a topic is left out for zero, or writes the number in one or two digits. -/
inductive Segment : String → UInt8 → Prop where
  | omitted : Segment "" 0
  | numeral {segment : String} {number : UInt8} (h : Decimal.IsNumeral 2 segment.toList)
      (hvalue : Decimal.numeralValue segment.toList = number.toNat) : Segment segment number

/-- On a board of `count` channels zero means all of them, and `1` to `count` mean one each. -/
inductive Addressee (count : Nat) : UInt8 → Destination → Prop where
  | all : Addressee count 0 .all
  | channel {number : UInt8} {i : Nat} (hi : i < count) (hnumber : number.toNat = i + 1) :
      Addressee count number (.channel i)

/-- The texts that a kind of command takes as payload. -/
def WellFormed : Kind → String → Prop
  | .color, text => Color.IsNotation text
  | .baseColor, text => Color.IsNotation text
  | .brightness, text =>
      Decimal.IsNumeral 3 text.toList ∧ Decimal.numeralValue text.toList ≤ 255
  | .mode, text => Decimal.IsNumeral 1 text.toList
  | .switch, text => Decimal.IsNumeral 1 text.toList
  | .random, _ => True

/-- What a payload tells the destination. -/
inductive Payload (d : Destination) : Kind → String → Command → Prop where
  | color {text : String} {c : Color} (h : Color.IsNotation text)
      (hvalue : text.toList.map Char.toUpper = c.digits) : Payload d .color text (.color d c)
  | baseColor {text : String} {c : Color} (h : Color.IsNotation text)
      (hvalue : text.toList.map Char.toUpper = c.digits) :
      Payload d .baseColor text (.baseColor d c)
  | brightness {text : String} {value : UInt8} (h : Decimal.IsNumeral 3 text.toList)
      (hvalue : Decimal.numeralValue text.toList = value.toNat) :
      Payload d .brightness text (.brightness d value)
  | mode {text : String} {digit : UInt8} (h : Decimal.IsNumeral 1 text.toList)
      (hvalue : Decimal.numeralValue text.toList = digit.toNat) :
      Payload d .mode text (.mode d (.ofDigit digit))
  | switch {text : String} {digit : UInt8} (h : Decimal.IsNumeral 1 text.toList)
      (hvalue : Decimal.numeralValue text.toList = digit.toNat) :
      Payload d .switch text (.switch d (.ofDigit digit))

/-- What a message of a known kind means for a destination that exists. -/
inductive ChannelMessage (d : Destination) (payload : ByteArray) :
    Kind → Except ParseError Command → Prop where
  | random : ChannelMessage d payload .random (.ok (.random d))
  | notUtf8 {kind : Kind} (hkind : kind ≠ .random) (h : ¬ payload.IsValidUTF8) :
      ChannelMessage d payload kind (.error .notUtf8)
  | illFormed {kind : Kind} {text : String} (htext : payload = text.toUTF8)
      (h : ¬ WellFormed kind text) :
      ChannelMessage d payload kind (.error (.invalidPayload (.kind kind)))
  | wellFormed {kind : Kind} {text : String} {command : Command} (htext : payload = text.toUTF8)
      (h : Payload d kind text command) : ChannelMessage d payload kind (.ok command)

/-- What a strobe message means. -/
inductive StrobeMessage (payload : ByteArray) : Except ParseError Command → Prop where
  | notUtf8 (h : ¬ payload.IsValidUTF8) : StrobeMessage payload (.error .notUtf8)
  | empty (htext : payload = "".toUTF8) : StrobeMessage payload (.ok (.strobe none))
  | illFormed {text : String} (htext : payload = text.toUTF8) (hne : text ≠ "")
      (h : ¬ (Decimal.IsNumeral 3 text.toList ∧ Decimal.numeralValue text.toList ≤ 255)) :
      StrobeMessage payload (.error (.invalidPayload .strobe))
  | level {text : String} {level : UInt8} (htext : payload = text.toUTF8)
      (h : Decimal.IsNumeral 3 text.toList)
      (hvalue : Decimal.numeralValue text.toList = level.toNat) :
      StrobeMessage payload (.ok (.strobe (some level)))

/-- What a message means to a node of `count` channels whose topics start with `root`. -/
inductive Message (root : String) (count : Nat) (topic : String) (payload : ByteArray) :
    Except ParseError Command → Prop where
  | mismatch (hstrobe : topic ≠ root ++ "/set/" ++ "strobo")
      (hchannel : ∀ segment word number, topic = root ++ "/set/" ++ segment ++ "/" ++ word →
        ¬ Segment segment number) :
      Message root count topic payload (.error .topicMismatch)
  | strobe {result : Except ParseError Command} (htopic : topic = root ++ "/set/" ++ "strobo")
      (h : StrobeMessage payload result) : Message root count topic payload result
  | outOfRange {segment word : String} {number : UInt8}
      (htopic : topic = root ++ "/set/" ++ segment ++ "/" ++ word)
      (hsegment : Segment segment number) (h : count < number.toNat) :
      Message root count topic payload (.error (.channelOutOfRange number))
  | unknown {segment word : String} {number : UInt8}
      (htopic : topic = root ++ "/set/" ++ segment ++ "/" ++ word)
      (hsegment : Segment segment number) (h : number.toNat ≤ count)
      (hword : ∀ kind : Kind, word ≠ kind.word) :
      Message root count topic payload (.ok .unrecognized)
  | known {segment : String} {number : UInt8} {kind : Kind} {d : Destination}
      {result : Except ParseError Command}
      (htopic : topic = root ++ "/set/" ++ segment ++ "/" ++ kind.word)
      (hsegment : Segment segment number) (hd : Addressee count number d)
      (h : ChannelMessage d payload kind result) : Message root count topic payload result

theorem slash_notMem_segment {segment : String} {number : UInt8} (h : Segment segment number) :
    '/' ∉ segment.toList := by
  cases h with
  | omitted => simp
  | numeral h _ =>
      intro hslash
      exact absurd (h.digits '/' hslash) (by decide)

theorem exists_addressee {count : Nat} {number : UInt8} (h : number.toNat ≤ count) :
    ∃ d, Addressee count number d := by
  by_cases hzero : number = 0
  · subst hzero
    exact ⟨.all, .all⟩
  · have hpos : number.toNat ≠ 0 := fun hnat => hzero (UInt8.toNat_inj.1 hnat)
    exact ⟨.channel (number.toNat - 1), .channel (by omega) (by omega)⟩

theorem exists_payload {d : Destination} {kind : Kind} {text : String} (hkind : kind ≠ .random)
    (h : WellFormed kind text) : ∃ command, Payload d kind text command := by
  cases kind with
  | color =>
      obtain ⟨c, hc⟩ := Color.exists_digits h
      exact ⟨_, .color h hc⟩
  | baseColor =>
      obtain ⟨c, hc⟩ := Color.exists_digits h
      exact ⟨_, .baseColor h hc⟩
  | brightness =>
      obtain ⟨value, hvalue⟩ := Decimal.exists_toNat_eq h.2
      exact ⟨_, .brightness h.1 hvalue.symm⟩
  | mode =>
      obtain ⟨digit, hdigit⟩ :=
        Decimal.exists_toNat_eq (Nat.le_trans h.value_le_nine (by decide))
      exact ⟨_, .mode h hdigit.symm⟩
  | switch =>
      obtain ⟨digit, hdigit⟩ :=
        Decimal.exists_toNat_eq (Nat.le_trans h.value_le_nine (by decide))
      exact ⟨_, .switch h hdigit.symm⟩
  | random => exact absurd rfl hkind

/-- A payload of bytes is the encoding of a text or of none. -/
theorem isValidUTF8_iff (payload : ByteArray) :
    payload.IsValidUTF8 ↔ ∃ text : String, payload = text.toUTF8 := by
  constructor
  · intro h
    exact ⟨⟨payload, h⟩, rfl⟩
  · rintro ⟨text, rfl⟩
    exact text.isValidUTF8

end Grammar

namespace Kind

theorem ofWord?_eq_some_iff (word : String) (kind : Kind) :
    ofWord? word.toList = some kind ↔ word = kind.word := by
  constructor
  · intro h
    have hfound := List.find?_some h
    exact (String.toList_injective (beq_iff_eq.1 hfound)).symm
  · rintro rfl
    cases kind <;> rfl

theorem ofWord?_eq_none_iff (word : String) :
    ofWord? word.toList = none ↔ ∀ kind : Kind, word ≠ kind.word := by
  rw [Option.eq_none_iff_forall_ne_some]
  exact forall_congr' fun kind => not_congr (ofWord?_eq_some_iff word kind)

end Kind

theorem Destination.ofNumber?_eq_some {count : Nat} {number : UInt8} {d : Destination}
    (h : Grammar.Addressee count number d) : ofNumber? number count = some d := by
  cases h with
  | all => rfl
  | @channel _ i hi hnumber =>
      have hne : number ≠ 0 := by
        rintro rfl
        cases hnumber
      rw [ofNumber?, if_neg hne, if_pos (by omega), hnumber, Nat.add_sub_cancel]

theorem Destination.ofNumber?_eq_none {count : Nat} {number : UInt8} (h : count < number.toNat) :
    ofNumber? number count = none := by
  have hne : number ≠ 0 := by
    rintro rfl
    exact absurd h (Nat.not_lt_zero count)
  rw [ofNumber?, if_neg hne, if_neg (Nat.not_le.2 h)]

namespace Command

theorem afterSet?_eq_some_iff (root topic : String) (rest : List Char) :
    afterSet? root topic = some rest ↔ topic = root ++ "/set/" ++ String.ofList rest := by
  rw [afterSet?, List.isPrefixOf?_eq_some_iff_append_eq]
  constructor
  · intro h
    apply String.toList_injective
    simpa [Topic.setSegment] using h.symm
  · rintro rfl
    simp [Topic.setSegment]

theorem channelNumber?_eq_some_iff (segment : String) (number : UInt8) :
    channelNumber? segment.toList = some number ↔ Grammar.Segment segment number := by
  constructor
  · intro h
    rw [channelNumber?] at h
    split at h
    next hempty =>
      obtain rfl : segment = "" := String.toList_injective (List.isEmpty_iff.1 hempty)
      obtain rfl := Option.some.inj h
      exact .omitted
    next =>
      obtain ⟨hnumeral, hvalue⟩ := (Decimal.readByte?_eq_some_iff 2 _ number).1 h
      exact .numeral hnumeral hvalue
  · intro h
    cases h with
    | omitted => rfl
    | numeral hnumeral hvalue =>
        have hempty : ¬ segment.toList.isEmpty = true := fun hempty =>
          hnumeral.nonempty (List.isEmpty_iff.1 hempty)
        rw [channelNumber?, if_neg hempty]
        exact (Decimal.readByte?_eq_some_iff 2 _ number).2 ⟨hnumeral, hvalue⟩

theorem text_toUTF8 (text : String) : Command.text text.toUTF8 = .ok text := by
  have h : String.fromUTF8? text.toUTF8 = some text := dif_pos text.isValidUTF8
  rw [Command.text, h]

theorem text_of_not_isValidUTF8 {payload : ByteArray} (h : ¬ payload.IsValidUTF8) :
    Command.text payload = .error .notUtf8 := by
  have hnone : String.fromUTF8? payload = none := dif_neg h
  rw [Command.text, hnone]

theorem colorPayload_toUTF8 (kind : Kind) (text : String) :
    colorPayload kind text.toUTF8 =
      match Color.ofNotation? text with
      | some c => .ok c
      | none => .error (.invalidPayload (.kind kind)) := by
  rw [colorPayload, text_toUTF8]
  rfl

theorem bytePayload_toUTF8 (subject : Subject) (maxDigits : Nat) (text : String) :
    bytePayload subject maxDigits text.toUTF8 =
      match Decimal.readByte? maxDigits text.toList with
      | some value => .ok value
      | none => .error (.invalidPayload subject) := by
  rw [bytePayload, text_toUTF8]
  rfl

theorem bytePayload_of_numeral {subject : Subject} {maxDigits : Nat} {text : String}
    {value : UInt8} (h : Decimal.IsNumeral maxDigits text.toList)
    (hvalue : Decimal.numeralValue text.toList = value.toNat) :
    bytePayload subject maxDigits text.toUTF8 = .ok value := by
  rw [bytePayload_toUTF8, (Decimal.readByte?_eq_some_iff _ _ _).2 ⟨h, hvalue⟩]

theorem bytePayload_of_not {subject : Subject} {maxDigits : Nat} {text : String}
    (h : ¬ (Decimal.IsNumeral maxDigits text.toList ∧ Decimal.numeralValue text.toList ≤ 255)) :
    bytePayload subject maxDigits text.toUTF8 = .error (.invalidPayload subject) := by
  rw [bytePayload_toUTF8, (Decimal.readByte?_eq_none_iff _ _).2 h]

theorem ofPayload_of_not_isValidUTF8 (d : Destination) {payload : ByteArray} {kind : Kind}
    (hkind : kind ≠ .random) (h : ¬ payload.IsValidUTF8) :
    ofPayload kind d payload = .error .notUtf8 := by
  have htext := text_of_not_isValidUTF8 h
  cases kind with
  | random => exact absurd rfl hkind
  | color | baseColor =>
      rw [ofPayload, colorPayload, htext]
      rfl
  | brightness | mode | switch =>
      rw [ofPayload, bytePayload, htext]
      rfl

theorem ofPayload_of_not_wellFormed (d : Destination) {kind : Kind} {text : String}
    (h : ¬ Grammar.WellFormed kind text) :
    ofPayload kind d text.toUTF8 = .error (.invalidPayload (.kind kind)) := by
  cases kind with
  | color | baseColor =>
      rw [ofPayload, colorPayload_toUTF8, (Color.ofNotation?_eq_none_iff text).2 h]
      rfl
  | brightness =>
      rw [ofPayload, bytePayload_of_not h]
      rfl
  | mode | switch =>
      rw [ofPayload, bytePayload_of_not fun hnumeral => h hnumeral.1]
      rfl
  | random => exact absurd trivial h

theorem ofPayload_of_payload {d : Destination} {kind : Kind} {text : String} {command : Command}
    (h : Grammar.Payload d kind text command) : ofPayload kind d text.toUTF8 = .ok command := by
  cases h with
  | color h hvalue | baseColor h hvalue =>
      rw [ofPayload, colorPayload_toUTF8, (Color.ofNotation?_eq_some_iff text _).2 ⟨h, hvalue⟩]
      rfl
  | brightness h hvalue | mode h hvalue | switch h hvalue =>
      rw [ofPayload, bytePayload_of_numeral h hvalue]
      rfl

theorem ofPayload_of_channelMessage {d : Destination} {payload : ByteArray} {kind : Kind}
    {result : Except ParseError Command} (h : Grammar.ChannelMessage d payload kind result) :
    ofPayload kind d payload = result := by
  cases h with
  | random => rfl
  | notUtf8 hkind h => exact ofPayload_of_not_isValidUTF8 d hkind h
  | illFormed htext h => exact htext ▸ ofPayload_of_not_wellFormed d h
  | wellFormed htext h => exact htext ▸ ofPayload_of_payload h

theorem ofStrobePayload_toUTF8 (text : String) :
    ofStrobePayload text.toUTF8 =
      if text.isEmpty then .ok (.strobe none)
      else (bytePayload .strobe 3 text.toUTF8).map fun level => .strobe (some level) := by
  rw [ofStrobePayload, text_toUTF8]
  rfl

theorem ofStrobePayload_of_strobeMessage {payload : ByteArray} {result : Except ParseError Command}
    (h : Grammar.StrobeMessage payload result) : ofStrobePayload payload = result := by
  cases h with
  | notUtf8 h =>
      rw [ofStrobePayload, text_of_not_isValidUTF8 h]
      rfl
  | empty htext =>
      rw [htext, ofStrobePayload_toUTF8]
      rfl
  | @illFormed text htext hne h =>
      have hempty : ¬ text.isEmpty = true := fun hempty => hne (String.isEmpty_iff.1 hempty)
      rw [htext, ofStrobePayload_toUTF8, if_neg hempty, bytePayload_of_not h]
      rfl
  | @level text level htext h hvalue =>
      have hempty : ¬ text.isEmpty = true := by
        rw [String.isEmpty_iff]
        rintro rfl
        exact h.nonempty rfl
      rw [htext, ofStrobePayload_toUTF8, if_neg hempty, bytePayload_of_numeral h hvalue]
      rfl

theorem parse_strobe (root : String) (count : Nat) (payload : ByteArray) :
    parse root count (root ++ "/set/" ++ "strobo") payload = ofStrobePayload payload := by
  have hafter := (afterSet?_eq_some_iff root (root ++ "/set/" ++ "strobo") "strobo".toList).2
    (by rw [String.ofList_toList])
  rw [parse, hafter]
  exact if_pos rfl

theorem parse_channel (root segment word : String) (count : Nat) (payload : ByteArray)
    (hslash : '/' ∉ segment.toList) :
    parse root count (root ++ "/set/" ++ segment ++ "/" ++ word) payload =
      ofSegments count segment.toList word.toList payload := by
  have hafter := (afterSet?_eq_some_iff root (root ++ "/set/" ++ segment ++ "/" ++ word)
    (segment.toList ++ '/' :: word.toList)).2 (by
      apply String.toList_injective
      simp)
  have hcut := (cutAt?_eq_some_iff '/' _ _ word.toList).2 ⟨hslash, rfl⟩
  have hne : segment.toList ++ '/' :: word.toList ≠ Subject.strobe.word.toList := by
    intro heq
    have hmem : '/' ∈ Subject.strobe.word.toList := heq ▸ by simp
    exact absurd hmem (by decide)
  rw [parse, hafter]
  show (if _ then _ else _) = _
  rw [if_neg hne, hcut]

theorem parse_mismatch {root topic : String} (count : Nat) (payload : ByteArray)
    (hstrobe : topic ≠ root ++ "/set/" ++ "strobo")
    (hchannel : ∀ segment word number, topic = root ++ "/set/" ++ segment ++ "/" ++ word →
      ¬ Grammar.Segment segment number) :
    parse root count topic payload = .error .topicMismatch := by
  rw [parse]
  split
  next => rfl
  next rest hafter =>
    have htopic := (afterSet?_eq_some_iff root topic rest).1 hafter
    rw [if_neg]
    · split
      next => rfl
      next segment word hcut =>
        obtain ⟨_, rfl⟩ := (cutAt?_eq_some_iff '/' rest segment word).1 hcut
        have hnone : channelNumber? segment = none := by
          rw [Option.eq_none_iff_forall_ne_some]
          intro number hnumber
          rw [← String.toList_ofList (l := segment), channelNumber?_eq_some_iff] at hnumber
          refine hchannel (String.ofList segment) (String.ofList word) number ?_ hnumber
          rw [htopic]
          apply String.toList_injective
          simp
        rw [ofSegments, hnone]
    · rintro rfl
      exact hstrobe (htopic.trans (by rw [String.ofList_toList]; rfl))

/-- The reader finds what the rules say. -/
theorem parse_of_message {root topic : String} {count : Nat} {payload : ByteArray}
    {result : Except ParseError Command} (h : Grammar.Message root count topic payload result) :
    parse root count topic payload = result := by
  cases h with
  | mismatch hstrobe hchannel => exact parse_mismatch count payload hstrobe hchannel
  | strobe htopic h => rw [htopic, parse_strobe, ofStrobePayload_of_strobeMessage h]
  | outOfRange htopic hsegment h =>
      have hnumber := (channelNumber?_eq_some_iff _ _).2 hsegment
      rw [htopic, parse_channel _ _ _ _ _ (Grammar.slash_notMem_segment hsegment)]
      simp only [ofSegments, hnumber, Destination.ofNumber?_eq_none h]
  | unknown htopic hsegment h hword =>
      have hnumber := (channelNumber?_eq_some_iff _ _).2 hsegment
      obtain ⟨d, hd⟩ := Grammar.exists_addressee h
      rw [htopic, parse_channel _ _ _ _ _ (Grammar.slash_notMem_segment hsegment)]
      simp only [ofSegments, hnumber, Destination.ofNumber?_eq_some hd,
        (Kind.ofWord?_eq_none_iff _).2 hword]
  | known htopic hsegment hd h =>
      have hnumber := (channelNumber?_eq_some_iff _ _).2 hsegment
      rw [htopic, parse_channel _ _ _ _ _ (Grammar.slash_notMem_segment hsegment)]
      simp only [ofSegments, hnumber, Destination.ofNumber?_eq_some hd,
        (Kind.ofWord?_eq_some_iff _ _).2 rfl]
      exact ofPayload_of_channelMessage h

end Command

namespace Grammar

theorem exists_channelMessage (d : Destination) (payload : ByteArray) (kind : Kind) :
    ∃ result, ChannelMessage d payload kind result := by
  by_cases hkind : kind = .random
  · subst hkind
    exact ⟨_, .random⟩
  · by_cases hvalid : payload.IsValidUTF8
    · obtain ⟨text, htext⟩ := (isValidUTF8_iff payload).1 hvalid
      by_cases h : WellFormed kind text
      · obtain ⟨command, hcommand⟩ := exists_payload (d := d) hkind h
        exact ⟨_, .wellFormed htext hcommand⟩
      · exact ⟨_, .illFormed htext h⟩
    · exact ⟨_, .notUtf8 hkind hvalid⟩

theorem exists_strobeMessage (payload : ByteArray) : ∃ result, StrobeMessage payload result := by
  by_cases hvalid : payload.IsValidUTF8
  · obtain ⟨text, htext⟩ := (isValidUTF8_iff payload).1 hvalid
    by_cases hne : text = ""
    · subst hne
      exact ⟨_, .empty htext⟩
    · by_cases h : Decimal.IsNumeral 3 text.toList ∧ Decimal.numeralValue text.toList ≤ 255
      · obtain ⟨level, hlevel⟩ := Decimal.exists_toNat_eq h.2
        exact ⟨_, .level htext h.1 hlevel.symm⟩
      · exact ⟨_, .illFormed htext hne h⟩
  · exact ⟨_, .notUtf8 hvalid⟩

/-- The rules say something about every message. -/
theorem exists_message (root topic : String) (count : Nat) (payload : ByteArray) :
    ∃ result, Message root count topic payload result := by
  by_cases hstrobe : topic = root ++ "/set/" ++ "strobo"
  · obtain ⟨result, h⟩ := exists_strobeMessage payload
    exact ⟨result, .strobe hstrobe h⟩
  by_cases hchannel : ∃ segment word number,
      topic = root ++ "/set/" ++ segment ++ "/" ++ word ∧ Segment segment number
  · obtain ⟨segment, word, number, htopic, hsegment⟩ := hchannel
    by_cases hrange : number.toNat ≤ count
    · by_cases hword : ∃ kind : Kind, word = kind.word
      · obtain ⟨kind, rfl⟩ := hword
        obtain ⟨d, hd⟩ := exists_addressee hrange
        obtain ⟨result, h⟩ := exists_channelMessage d payload kind
        exact ⟨result, .known htopic hsegment hd h⟩
      · exact ⟨_, .unknown htopic hsegment hrange fun kind hkind => hword ⟨kind, hkind⟩⟩
    · exact ⟨_, .outOfRange htopic hsegment (Nat.lt_of_not_le hrange)⟩
  · exact ⟨_, .mismatch hstrobe fun segment word number htopic hsegment =>
      hchannel ⟨segment, word, number, htopic, hsegment⟩⟩

end Grammar

namespace Command

theorem message_parse (root topic : String) (count : Nat) (payload : ByteArray) :
    Grammar.Message root count topic payload (parse root count topic payload) := by
  obtain ⟨result, h⟩ := Grammar.exists_message root topic count payload
  rw [parse_of_message h]
  exact h

/-- A message is read as a command, or refused for a reason, exactly if the grammar says so. -/
theorem parse_eq_iff_message (root topic : String) (count : Nat) (payload : ByteArray)
    (result : Except ParseError Command) :
    parse root count topic payload = result ↔ Grammar.Message root count topic payload result := by
  constructor
  · rintro rfl
    exact message_parse root topic count payload
  · exact parse_of_message

example : parse "hall" 3 "hall/set/02/bright" "255".toUTF8 = .ok (.brightness (.channel 1) 255) := by
  decide +kernel

example : parse "hall" 3 "hall/set/4/bright" "256".toUTF8 = .error (.channelOutOfRange 4) := by
  decide +kernel

end Command

end Luminaire
