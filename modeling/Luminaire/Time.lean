/-!
# Time

Instants and durations count microseconds in 64-bit words. An instant can lie arbitrarily close
to the end of the range, so moving one forward is the partial operation `Instant.after?`, which
has no result past the last instant. Milliseconds are the coarser unit in which lateness is
judged: reading a time in milliseconds drops the part below one millisecond.
-/

namespace Luminaire

/-- A length of time in microseconds. -/
structure Duration where
  micros : UInt64
deriving DecidableEq

/-- A point in time, in microseconds since the start. -/
structure Instant where
  micros : UInt64
deriving DecidableEq

namespace Duration

/-- No time at all. -/
def zero : Duration := ⟨0⟩

/-- The whole milliseconds in the duration. -/
def millis (d : Duration) : UInt64 := d.micros / 1000

/-- The duration of that many milliseconds, counted modulo the range of the word. -/
def ofMillis (ms : UInt64) : Duration := ⟨ms * 1000⟩

/-- The duration of that many seconds, counted modulo the range of the word. -/
def ofSeconds (s : UInt64) : Duration := ⟨s * 1000000⟩

end Duration

namespace Instant

instance : LE Instant := ⟨fun a b => a.micros ≤ b.micros⟩

instance : LT Instant := ⟨fun a b => a.micros < b.micros⟩

instance (a b : Instant) : Decidable (a ≤ b) := inferInstanceAs (Decidable (a.micros ≤ b.micros))

instance (a b : Instant) : Decidable (a < b) := inferInstanceAs (Decidable (a.micros < b.micros))

theorem le_iff_toNat_le {a b : Instant} : a ≤ b ↔ a.micros.toNat ≤ b.micros.toNat :=
  UInt64.le_iff_toNat_le

theorem lt_iff_toNat_lt {a b : Instant} : a < b ↔ a.micros.toNat < b.micros.toNat :=
  UInt64.lt_iff_toNat_lt

theorem lt_iff_not_le {a b : Instant} : a < b ↔ ¬ b ≤ a := by
  rw [lt_iff_toNat_lt, le_iff_toNat_le, Nat.not_le]

/-- The start of time. -/
def zero : Instant := ⟨0⟩

/-- The whole milliseconds since the start. -/
def millis (t : Instant) : UInt64 := t.micros / 1000

/-- The instant `d` after `t`, unless it lies past the last one. -/
def after? (t : Instant) (d : Duration) : Option Instant :=
  if t.micros.toNat + d.micros.toNat < UInt64.size then some ⟨t.micros + d.micros⟩ else none

/-- The time from `now` until `t`, zero if `t` is not ahead of `now`. -/
def untilFrom (t now : Instant) : Duration :=
  if now < t then ⟨t.micros - now.micros⟩ else Duration.zero

/-- The earlier of two instants. -/
def earlier (a b : Instant) : Instant := if a ≤ b then a else b

theorem after?_eq_some_iff (t : Instant) (d : Duration) (u : Instant) :
    t.after? d = some u ↔ u.micros.toNat = t.micros.toNat + d.micros.toNat := by
  have hu := u.micros.toNat_lt_size
  rw [after?]
  split
  next h =>
    rw [Option.some.injEq]
    constructor
    · rintro rfl
      show (t.micros + d.micros).toNat = _
      rw [UInt64.toNat_add, Nat.mod_eq_of_lt h]
    · intro heq
      have : u.micros = t.micros + d.micros := by
        apply UInt64.toNat_inj.1
        rw [UInt64.toNat_add, Nat.mod_eq_of_lt h, heq]
      cases u
      cases this
      rfl
  next h =>
    simp only [reduceCtorEq, false_iff]
    omega

theorem after?_eq_none_iff (t : Instant) (d : Duration) :
    t.after? d = none ↔ UInt64.size ≤ t.micros.toNat + d.micros.toNat := by
  rw [after?]
  split
  · simp only [reduceCtorEq, false_iff]
    omega
  · simp only [true_iff]
    omega

theorem toNat_untilFrom (t now : Instant) :
    (t.untilFrom now).micros.toNat = t.micros.toNat - now.micros.toNat := by
  rw [untilFrom]
  split
  next h =>
    have hlt := lt_iff_toNat_lt.1 h
    exact UInt64.toNat_sub_of_le _ _ (UInt64.le_iff_toNat_le.2 (by omega))
  next h =>
    have hle : ¬ now.micros.toNat < t.micros.toNat := fun h' => h (lt_iff_toNat_lt.2 h')
    show 0 = _
    omega

theorem toNat_earlier (a b : Instant) :
    (a.earlier b).micros.toNat = min a.micros.toNat b.micros.toNat := by
  rw [earlier]
  split
  next h =>
    rw [le_iff_toNat_le] at h
    exact (Nat.min_eq_left h).symm
  next h =>
    rw [le_iff_toNat_le] at h
    exact (Nat.min_eq_right (Nat.le_of_not_le h)).symm

end Instant

end Luminaire
