/-!
# The DMX inbox

Universes arrive whenever the desk sends them and are wanted once per tick. The inbox hands over
the latest one: storing replaces what was not taken yet, and taking empties the inbox, so no
universe is seen twice and none after a newer one. A universe that is longer than the inbox is
refused, and what was there stays.
-/

namespace Luminaire

namespace Dmx

/-- The universe has more slots than the inbox holds. -/
structure UniverseTooLong where
  length : Nat
deriving DecidableEq

/-- A place for one universe of at most `size` slots. -/
structure Inbox (size : Nat) where
  /-- The universe that has arrived and was not taken yet. -/
  waiting : Option { slots : Array UInt8 // slots.size ≤ size }

namespace Inbox

variable {size : Nat}

/-- Nothing has arrived. -/
def empty : Inbox size := ⟨none⟩

/-- A universe is waiting. -/
def hasNew (box : Inbox size) : Bool := box.waiting.isSome

/-- The inbox with the universe in it, or the reason why it is refused. -/
def store (_ : Inbox size) (slots : Array UInt8) : Except UniverseTooLong (Inbox size) :=
  if h : slots.size ≤ size then .ok ⟨some ⟨slots, h⟩⟩ else .error ⟨slots.size⟩

/-- The universe that is waiting, if one is, and the inbox without it. -/
def take (box : Inbox size) : Option (Array UInt8) × Inbox size :=
  (box.waiting.map Subtype.val, empty)

theorem store_of_le (box : Inbox size) {slots : Array UInt8} (h : slots.size ≤ size) :
    box.store slots = .ok ⟨some ⟨slots, h⟩⟩ := by
  rw [store, dif_pos h]

theorem store_of_lt (box : Inbox size) {slots : Array UInt8} (h : size < slots.size) :
    box.store slots = .error ⟨slots.size⟩ := by
  rw [store, dif_neg (Nat.not_le.2 h)]

end Inbox

end Dmx

end Luminaire
