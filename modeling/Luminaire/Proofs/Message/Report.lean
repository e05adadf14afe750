import Luminaire.Broker.Publisher
import Luminaire.Proofs.Message.Reading

/-!
# What is told can be said back

A node tells every attribute of a channel in the notation in which it takes commands, and for every
attribute there is a kind of command that sets it. So a report that comes back under the topic of
that kind is the command to be what was reported. A channel number in a topic has at most two
digits, which leaves room for the first 99 channels.
-/

namespace Luminaire

namespace Attribute

/-- The kind of command that sets the attribute. -/
def kind : Attribute → Kind
  | color => .color
  | baseColor => .baseColor
  | status => .switch
  | brightness => .brightness
  | mode => .mode

/-- The command that gives a channel the attribute as `c` has it. -/
def command (i : Nat) (c : Channel) : Attribute → Command
  | color => .color (.channel i) c.current
  | baseColor => .baseColor (.channel i) c.base
  | status => .switch (.channel i) c.status
  | brightness => .brightness (.channel i) c.brightness
  | mode => .mode (.channel i) c.mode

/-- The topic under which the attribute is set. Channels are numbered from one. -/
def commandTopic (root : String) (number : Nat) (a : Attribute) : String :=
  root ++ "/set/" ++ Nat.repr number ++ "/" ++ a.kind.word

@[simp] theorem destination?_command (i : Nat) (c : Channel) (a : Attribute) :
    (a.command i c).destination? = some (.channel i) := by
  cases a <;> rfl

end Attribute

theorem Decimal.isNumeral_writeByte {maxDigits : Nat} {value : UInt8} (hpos : 0 < maxDigits)
    (h : value.toNat < 10 ^ maxDigits) : IsNumeral maxDigits (writeByte value).toList :=
  isNumeral_repr hpos h

theorem Decimal.numeralValue_writeByte (value : UInt8) :
    numeralValue (writeByte value).toList = value.toNat :=
  numeralValue_repr value.toNat

namespace Grammar

theorem segment_repr {number : UInt8} (h : number.toNat < 100) :
    Segment number.toNat.repr number :=
  .numeral (Decimal.isNumeral_repr (by decide) h) (Decimal.numeralValue_repr number.toNat)

/-- A report is a payload of the kind that sets the attribute. -/
theorem payload_report (i : Nat) (c : Channel) (a : Attribute) :
    Payload (.channel i) a.kind (a.report c) (a.command i c) := by
  have hcolor : ∀ shade : Color, Color.IsNotation shade.toNotation ∧
      shade.toNotation.toList.map Char.toUpper = shade.digits := fun shade =>
    (Color.ofNotation?_eq_some_iff _ shade).1 (Color.ofNotation?_toNotation shade)
  cases a with
  | color => exact .color (hcolor c.current).1 (hcolor c.current).2
  | baseColor => exact .baseColor (hcolor c.base).1 (hcolor c.base).2
  | brightness =>
      have hbyte := c.brightness.toNat_lt
      exact .brightness (Decimal.isNumeral_writeByte (by decide) (by omega))
        (Decimal.numeralValue_writeByte c.brightness)
  | status =>
      have hdigit : c.status.digit.toNat < 10 ^ 1 := by cases c.status <;> decide
      have hpayload := Payload.switch (d := .channel i)
        (Decimal.isNumeral_writeByte (by decide) hdigit) (Decimal.numeralValue_writeByte _)
      rw [Status.ofDigit_digit] at hpayload
      exact hpayload
  | mode =>
      have hdigit : c.mode.digit.toNat < 10 ^ 1 := by cases c.mode <;> decide
      have hpayload := Payload.mode (d := .channel i)
        (Decimal.isNumeral_writeByte (by decide) hdigit) (Decimal.numeralValue_writeByte _)
      rw [FadeMode.ofDigit_digit] at hpayload
      exact hpayload

end Grammar

/-- A report that comes back is the command to be what was reported. -/
theorem Command.parse_report {root : String} {count i : Nat} (hi : i < count) (hnumber : i < 99)
    (c : Channel) (a : Attribute) :
    parse root count (a.commandTopic root (i + 1)) (a.report c).toUTF8 = .ok (a.command i c) := by
  obtain ⟨number, hvalue⟩ := Decimal.exists_toNat_eq (show i + 1 ≤ 255 by omega)
  have hsegment : Grammar.Segment number.toNat.repr number := Grammar.segment_repr (by omega)
  rw [hvalue] at hsegment
  exact parse_of_message
    (.known rfl hsegment (.channel hi hvalue) (.wellFormed rfl (Grammar.payload_report i c a)))

example : Command.parse "hall" 12 "hall/set/12/switch" "1".toUTF8 = .ok (.switch (.channel 11) .on) := by
  decide +kernel

end Luminaire
