import Luminaire.Text.Bounded

/-!
# Where a text can be cut

A text takes its room in bytes and is cut between characters. The fronts of a text that fit into a
given room are ordered, each a front of the next, and cutting keeps the longest of them
(`IsLongestFront`): the next character would not have fitted, and a shorter one behind it is not put
in its place. A text that fits is kept as it is, so cutting twice is cutting once.

A byte position is another way to say where to cut. It need not lie between two characters, and then
there is no front that ends there (`frontAt?`). The positions at which characters begin do, and so
does the end of the text.
-/

namespace Luminaire

theorem takeBytes_isPrefix (budget : Nat) (cs : List Char) : takeBytes budget cs <+: cs := by
  induction cs generalizing budget with
  | nil => exact List.nil_prefix
  | cons c cs ih =>
      rw [takeBytes_cons]
      split
      · exact List.cons_prefix_cons.2 ⟨rfl, ih _⟩
      · exact List.nil_prefix

theorem isPrefix_takeBytes {budget : Nat} {cs front : List Char} (h : front <+: cs)
    (hfits : utf8Length front ≤ budget) : front <+: takeBytes budget cs := by
  induction cs generalizing budget front with
  | nil => rwa [takeBytes_nil]
  | cons c cs ih =>
      cases front with
      | nil => exact List.nil_prefix
      | cons d ds =>
          obtain ⟨rfl, hds⟩ := List.cons_prefix_cons.1 h
          rw [utf8Length_cons] at hfits
          rw [takeBytes_cons, if_pos (by omega)]
          exact List.cons_prefix_cons.2 ⟨rfl, ih hds (by omega)⟩

/-- A front of the text that fits into the room, and of which every front that fits is a front. -/
structure IsLongestFront (budget : Nat) (text front : String) : Prop where
  isFront : front.toList <+: text.toList
  fits : front.utf8ByteSize ≤ budget
  longest : ∀ other : String, other.toList <+: text.toList → other.utf8ByteSize ≤ budget →
    other.toList <+: front.toList

namespace IsLongestFront

variable {budget : Nat} {text front front' : String}

theorem unique (h : IsLongestFront budget text front) (h' : IsLongestFront budget text front') :
    front = front' := by
  have hle := h'.longest front h.isFront h.fits
  have hge := h.longest front' h'.isFront h'.fits
  exact String.toList_injective (hle.eq_of_length_le hge.length_le)

theorem eq_text_iff (h : IsLongestFront budget text front) :
    front = text ↔ text.utf8ByteSize ≤ budget := by
  constructor
  · rintro rfl
    exact h.fits
  · intro hfits
    have hlongest := h.longest text List.prefix_rfl hfits
    exact String.toList_injective (h.isFront.eq_of_length_le hlongest.length_le)

/-- The next character would not have fitted. -/
theorem lt_of_next (h : IsLongestFront budget text front) {c : Char} {rest : List Char}
    (htext : text.toList = front.toList ++ c :: rest) :
    budget < front.utf8ByteSize + c.utf8Size := by
  refine Nat.lt_of_not_le fun hle => ?_
  have hlonger : (front.push c).toList <+: text.toList := by
    rw [htext, List.append_cons, String.toList_push]
    exact List.prefix_append _ rest
  have hshort := h.longest (front.push c) hlonger (by rwa [String.utf8ByteSize_push])
  have hlength := hshort.length_le
  rw [String.toList_push, List.length_append, List.length_singleton] at hlength
  exact absurd hlength (Nat.not_succ_le_self _)

end IsLongestFront

namespace Text

variable {capacity : Nat}

theorem isLongestFront_truncate (text : String) :
    IsLongestFront capacity text (truncate text : Text capacity).content where
  isFront := by
    rw [toList_truncate]
    exact takeBytes_isPrefix capacity text.toList
  fits := (truncate text).fits
  longest := fun other hfront hfits => by
    rw [toList_truncate]
    rw [utf8ByteSize_eq] at hfits
    exact isPrefix_takeBytes hfront hfits

theorem isLongestFront_iff (text front : String) :
    IsLongestFront capacity text front ↔ front = (truncate text : Text capacity).content := by
  constructor
  · exact fun h => h.unique (isLongestFront_truncate text)
  · rintro rfl
    exact isLongestFront_truncate text

/-- A text that fits is not cut. -/
@[simp] theorem truncate_content (t : Text capacity) : truncate t.content = t :=
  ext ((isLongestFront_truncate t.content).eq_text_iff.2 t.fits)

end Text

/-- The characters before a byte position. There are none if the position lies within a character or
behind the end. -/
def frontAt? (position : Nat) (cs : List Char) : Option (List Char) :=
  if utf8Length (takeBytes position cs) = position then some (takeBytes position cs) else none

theorem utf8Length_eq_zero {cs : List Char} (h : utf8Length cs = 0) : cs = [] := by
  cases cs with
  | nil => rfl
  | cons c cs =>
      have hpos := c.utf8Size_pos
      rw [utf8Length_cons] at h
      omega

theorem frontAt?_eq_some_iff (position : Nat) (cs front : List Char) :
    frontAt? position cs = some front ↔ front <+: cs ∧ utf8Length front = position := by
  rw [frontAt?]
  constructor
  · intro h
    split at h
    next hlength =>
      obtain rfl := Option.some.inj h
      exact ⟨takeBytes_isPrefix position cs, hlength⟩
    next => cases h
  · rintro ⟨hfront, hlength⟩
    -- the longest front that fits has the front of this length as a front, and no bytes behind it
    obtain ⟨rest, hrest⟩ := isPrefix_takeBytes hfront (Nat.le_of_eq hlength)
    have hle := utf8Length_takeBytes_le position cs
    rw [← hrest, utf8Length_append] at hle
    obtain rfl := utf8Length_eq_zero (show utf8Length rest = 0 by omega)
    rw [List.append_nil] at hrest
    rw [← hrest, if_pos hlength]

/-- The byte positions at which the characters begin, the first of them at `start`. -/
def positions : Nat → List Char → List Nat
  | _, [] => []
  | start, c :: cs => start :: positions (start + c.utf8Size) cs

/-- The position of the character with number `k` is behind the first `k` characters. If there is no
such character, the end of the text is. -/
theorem getD_positions (start k : Nat) (cs : List Char) :
    (positions start cs)[k]?.getD (start + utf8Length cs) = start + utf8Length (cs.take k) := by
  induction cs generalizing start k with
  | nil => simp [positions]
  | cons c cs ih =>
      cases k with
      | zero => rfl
      | succ k =>
          rw [positions, List.getElem?_cons_succ, utf8Length_cons, ← Nat.add_assoc, ih,
            List.take_succ_cons, utf8Length_cons, Nat.add_assoc]

end Luminaire
