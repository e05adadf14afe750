import Luminaire.Broker.Publisher
import Luminaire.Broker.Subscription
import Luminaire.Message.Grammar
import Luminaire.Node.Settings
import Luminaire.Proofs.Text.Numerals

/-!
# Topics do not collide

The topic of a reported value is read from the left: below the root comes the number of the
channel, which holds no slash, and behind the next slash the name. So a topic determines both,
whatever the name contains. The presence message has another segment behind the root, and shares
its topic with no value. The pattern for the commands about a subject ends with the word for it.
-/

namespace Luminaire

theorem repr_injective : Function.Injective Nat.repr := by
  intro m n h
  calc
    m = Decimal.numeralValue m.repr.toList := (Decimal.numeralValue_repr m).symm
    _ = Decimal.numeralValue n.repr.toList := by rw [h]
    _ = n := Decimal.numeralValue_repr n

theorem slash_notMem_repr (n : Nat) : '/' ∉ n.repr.toList := by
  intro h
  rw [Nat.toList_repr] at h
  have hdigit := Nat.isDigit_of_mem_toDigits (by decide) (by decide) h
  exact absurd hdigit (by decide)

namespace Topic

theorem toList_of_state {root name : String} {number : Nat} {topic : Topic}
    (h : state root number name = .ok topic) :
    topic.content.toList =
      root.toList ++ (getSegment.toList ++ (number.repr.toList ++ '/' :: name.toList)) := by
  rw [← (build_eq_ok_iff _ _).1 h]
  simp

theorem state_inj {root name name' : String} {number number' : Nat} {topic : Topic}
    (h : state root number name = .ok topic) (h' : state root number' name' = .ok topic) :
    number = number' ∧ name = name' := by
  have hlist := (toList_of_state h).symm.trans (toList_of_state h')
  have htail := List.append_cancel_left (List.append_cancel_left hlist)
  -- a list has only one cut at its first slash
  have hcut := (cutAt?_eq_some_iff '/' _ _ name.toList).2 ⟨slash_notMem_repr number, rfl⟩
  have hcut' := (cutAt?_eq_some_iff '/' _ _ _).2 ⟨slash_notMem_repr number', htail⟩
  obtain ⟨hnumber, hname⟩ := Prod.mk.inj (Option.some.inj (hcut.symm.trans hcut'))
  exact ⟨repr_injective (String.toList_injective hnumber), String.toList_injective hname⟩

theorem will_ne_state {root name : String} {number : Nat} {topic : Topic}
    (h : will root = .ok topic) : state root number name ≠ .ok topic := by
  intro h'
  have hwill : topic.content.toList = root.toList ++ willSuffix.toList := by
    rw [← (build_eq_ok_iff _ _).1 h]
    simp
  have htail := List.append_cancel_left (hwill.symm.trans (toList_of_state h'))
  have hsecond := congrArg (fun cs => cs[1]?) htail
  cases hsecond

end Topic

theorem Attribute.word_injective : Function.Injective Attribute.word := by
  intro a b h
  cases a <;> cases b <;> first | rfl | exact absurd h (by decide)

theorem Kind.word_injective : Function.Injective Kind.word := by
  intro a b h
  cases a <;> cases b <;> first | rfl | exact absurd h (by decide)

namespace Subject

/-- What follows the root in the pattern for the subject. -/
def suffix : Subject → String
  | kind k => Topic.setSegment ++ "+/" ++ k.word
  | strobe => Topic.strobeSuffix

theorem suffix_injective : Function.Injective suffix := by
  intro a b h
  cases a with
  | kind k =>
      cases b with
      | kind k' => exact congrArg kind (Kind.word_injective (String.append_right_inj _ |>.1 h))
      | strobe => cases k <;> exact absurd h (by decide)
  | strobe =>
      cases b with
      | kind k => cases k <;> exact absurd h (by decide)
      | strobe => rfl

theorem toList_of_filter {root : String} {s : Subject} {filter : Topic}
    (h : s.filter root = .ok filter) :
    filter.content.toList = root.toList ++ s.suffix.toList := by
  cases s with
  | kind k =>
      rw [← (Topic.build_eq_ok_iff _ _).1 h]
      simp [suffix]
  | strobe =>
      rw [← (Topic.build_eq_ok_iff _ _).1 h]
      simp [suffix]

/-- The pattern for the subject below the root of a node, which leaves room for it. -/
def pattern (root : Text Settings.rootCapacity) (s : Subject) : Topic where
  content := root.content ++ s.suffix
  fits := by
    have hroot := root.fits
    have hsuffix : s.suffix.utf8ByteSize ≤ 13 := by
      cases s with
      | kind k => cases k <;> decide
      | strobe => decide
    simp only [Settings.rootCapacity] at hroot
    simp only [String.utf8ByteSize_append, Topic.capacity]
    omega

theorem filter_eq_ok_pattern (root : Text Settings.rootCapacity) (s : Subject) :
    s.filter root.content = .ok (s.pattern root) := by
  cases s with
  | kind k =>
      refine (Topic.build_eq_ok_iff _ _).2 ?_
      simp [pattern, suffix, String.append_assoc]
  | strobe => exact (Topic.build_eq_ok_iff _ _).2 (Topic.join_pair _ _)

/-- A pattern stands for one subject only. -/
theorem filter_inj {root : String} {s s' : Subject} {filter : Topic}
    (h : s.filter root = .ok filter) (h' : s'.filter root = .ok filter) : s = s' := by
  have hlist := (toList_of_filter h).symm.trans (toList_of_filter h')
  exact suffix_injective (String.toList_injective (List.append_cancel_left hlist))

end Subject

end Luminaire
