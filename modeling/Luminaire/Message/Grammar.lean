import Luminaire.Color.Notation
import Luminaire.Message.Command
import Luminaire.Message.Topic
import Luminaire.Text.Decimal

/-!
# Reading messages

A message is a topic and a payload. Below `<root>/set/` a topic is either `strobo` or has a
channel number, a slash and the word for a kind of command. The number has one or two digits;
left out, it means every channel. Everything behind the first slash is the word, so a word may
hold further slashes, and then it is the word for no kind.

The parts are judged from left to right and the first fault is reported: the shape of the topic,
then the range of the channel number, then the payload. A payload is only looked at by the kinds
that have one. A random color needs none, and neither does a command that is not known.
-/

namespace Luminaire

/-- Why a message is no command. -/
inductive ParseError where
  /-- The topic has not the shape of a command topic. -/
  | topicMismatch
  /-- There is no channel of that number. -/
  | channelOutOfRange (number : UInt8)
  /-- The payload is no text. -/
  | notUtf8
  /-- The payload is not what the subject of the command calls for. -/
  | invalidPayload (subject : Subject)
deriving DecidableEq

namespace ParseError

/-- The words for the error. -/
def message : ParseError → String
  | topicMismatch => "topic does not match command pattern"
  | channelOutOfRange number => "channel " ++ Decimal.writeByte number ++ " out of range"
  | notUtf8 => "payload is not valid utf-8"
  | invalidPayload subject => "invalid " ++ subject.word ++ " payload"

end ParseError

/-- The parts of a list before and behind the first occurrence of `x`. -/
def cutAt? {α : Type} [DecidableEq α] (x : α) : List α → Option (List α × List α)
  | [] => none
  | y :: ys =>
      if y = x then some ([], ys)
      else (cutAt? x ys).map fun (front, back) => (y :: front, back)

@[simp] theorem cutAt?_nil {α : Type} [DecidableEq α] (x : α) : cutAt? x [] = none := rfl

theorem cutAt?_cons {α : Type} [DecidableEq α] (x y : α) (ys : List α) :
    cutAt? x (y :: ys) =
      if y = x then some ([], ys)
      else (cutAt? x ys).map fun (front, back) => (y :: front, back) := rfl

/-- A list is cut at the first `x`: the front does not hold one. -/
theorem cutAt?_eq_some_iff {α : Type} [DecidableEq α] (x : α) (l front back : List α) :
    cutAt? x l = some (front, back) ↔ x ∉ front ∧ l = front ++ x :: back := by
  induction l generalizing front with
  | nil => simp
  | cons y ys ih =>
      rw [cutAt?_cons]
      split
      next h =>
        subst h
        cases front with
        | nil => simp
        | cons z zs =>
            simp only [Option.some.injEq, Prod.mk.injEq, reduceCtorEq, false_and, List.mem_cons,
              not_or, List.cons_append, List.cons.injEq, false_iff, not_and]
            exact fun hne heq => absurd heq hne.1
      next h =>
        simp only [Option.map_eq_some_iff, Prod.exists, Prod.mk.injEq]
        constructor
        · rintro ⟨f, b, hcut, rfl, rfl⟩
          have hsplit := (ih f).1 hcut
          exact ⟨by simpa [Ne.symm h] using hsplit.1, by rw [hsplit.2]; rfl⟩
        · rintro ⟨hnot, heq⟩
          cases front with
          | nil =>
              simp only [List.nil_append, List.cons.injEq] at heq
              exact absurd heq.1 h
          | cons z zs =>
              simp only [List.cons_append, List.cons.injEq] at heq
              simp only [List.mem_cons, not_or] at hnot
              exact ⟨zs, back, (ih zs).2 ⟨hnot.2, heq.2⟩, by rw [heq.1], rfl⟩

theorem cutAt?_eq_none_iff {α : Type} [DecidableEq α] (x : α) (l : List α) :
    cutAt? x l = none ↔ x ∉ l := by
  induction l with
  | nil => simp
  | cons y ys ih =>
      rw [cutAt?_cons]
      split
      next h => simp [h]
      next h => simp [ih, Ne.symm h]

namespace Command

/-- What follows `<root>/set/` in a topic. -/
def afterSet? (root topic : String) : Option (List Char) :=
  (root.toList ++ Topic.setSegment.toList).isPrefixOf? topic.toList

/-- The number in the channel part of a topic, which is zero if the part is empty. -/
def channelNumber? (segment : List Char) : Option UInt8 :=
  if segment.isEmpty then some 0 else Decimal.readByte? 2 segment

/-- The payload as a text. -/
def text (payload : ByteArray) : Except ParseError String :=
  match String.fromUTF8? payload with
  | some s => .ok s
  | none => .error .notUtf8

/-- A color payload: six hexadecimal digits. -/
def colorPayload (kind : Kind) (payload : ByteArray) : Except ParseError Color := do
  match Color.ofNotation? (← text payload) with
  | some c => .ok c
  | none => .error (.invalidPayload (.kind kind))

/-- A decimal payload of at most `maxDigits` digits. -/
def bytePayload (subject : Subject) (maxDigits : Nat) (payload : ByteArray) :
    Except ParseError UInt8 := do
  match Decimal.readByte? maxDigits (← text payload).toList with
  | some value => .ok value
  | none => .error (.invalidPayload subject)

/-- The strobe command of a payload. An empty one sets nothing. -/
def ofStrobePayload (payload : ByteArray) : Except ParseError Command := do
  if (← text payload).isEmpty then .ok (.strobe none)
  else return .strobe (some (← bytePayload .strobe 3 payload))

/-- The command of a kind for a destination, with what its payload says. -/
def ofPayload (kind : Kind) (d : Destination) (payload : ByteArray) : Except ParseError Command :=
  match kind with
  | .color => return .color d (← colorPayload .color payload)
  | .baseColor => return .baseColor d (← colorPayload .baseColor payload)
  | .brightness => return .brightness d (← bytePayload (.kind .brightness) 3 payload)
  | .mode => return .mode d (.ofDigit (← bytePayload (.kind .mode) 1 payload))
  | .switch => return .switch d (.ofDigit (← bytePayload (.kind .switch) 1 payload))
  | .random => .ok (.random d)

/-- The command for channels of a board of `count` channels, given by the channel part of the
topic and the word behind it. -/
def ofSegments (count : Nat) (segment word : List Char) (payload : ByteArray) :
    Except ParseError Command :=
  match channelNumber? segment with
  | none => .error .topicMismatch
  | some number =>
      match Destination.ofNumber? number count with
      | none => .error (.channelOutOfRange number)
      | some d =>
          match Kind.ofWord? word with
          | none => .ok .unrecognized
          | some kind => ofPayload kind d payload

/-- The command of a message to a node with `count` channels, or why there is none. -/
def parse (root : String) (count : Nat) (topic : String) (payload : ByteArray) :
    Except ParseError Command :=
  match afterSet? root topic with
  | none => .error .topicMismatch
  | some rest =>
      if rest = Subject.strobe.word.toList then ofStrobePayload payload
      else
        match cutAt? '/' rest with
        | none => .error .topicMismatch
        | some (segment, word) => ofSegments count segment word payload

end Command

end Luminaire
