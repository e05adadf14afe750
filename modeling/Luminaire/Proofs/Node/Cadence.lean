import Luminaire.Node.Pacer

/-!
# When a cadence fires

A step is taken at or after the time at which it is due, and the next one is due one period after the
anchor, which lies between the two (`fire?_eq_some`). So however late a step is taken, the deadline
moves on by a period at least.

A cadence judges in whole milliseconds whether it has fallen behind. A step that is taken less than a
period late is never judged so, provided that a period has a millisecond: the tolerance is then at
least the two milliseconds by which two roundings can be off.
-/

namespace Luminaire

namespace Cadence

variable {c c' : Cadence} {now : Instant} {fired : Bool}

theorem le_of_not_lt_next (h : ¬ now < c.next) : c.next.micros.toNat ≤ now.micros.toNat := by
  rw [Instant.lt_iff_toNat_lt] at h
  exact Nat.le_of_not_lt h

/-- Steps are counted from a time between the deadline and the present. -/
theorem anchor_bounds (h : ¬ now < c.next) :
    c.next.micros.toNat ≤ (c.anchor now).micros.toNat ∧
      (c.anchor now).micros.toNat ≤ now.micros.toNat := by
  have hdue := le_of_not_lt_next h
  rw [anchor]
  split
  · exact ⟨hdue, Nat.le_refl _⟩
  · exact ⟨Nat.le_refl _, hdue⟩

/-- All that firing a cadence can do. -/
theorem fire?_eq_some (h : c.fire? now = some (fired, c')) :
    now < c.next ∧ fired = false ∧ c' = c ∨
      ¬ now < c.next ∧ fired = true ∧ c'.period = c.period ∧
        c'.next.micros.toNat = (c.anchor now).micros.toNat + c.period.micros.toNat := by
  by_cases hearly : now < c.next
  · rw [fire?_of_early hearly] at h
    obtain ⟨rfl, rfl⟩ := Prod.mk.inj (Option.some.inj h)
    exact Or.inl ⟨hearly, rfl, rfl⟩
  · rw [fire?_of_due hearly] at h
    obtain ⟨next, hnext, heq⟩ := Option.map_eq_some_iff.1 h
    obtain ⟨rfl, rfl⟩ := Prod.mk.inj heq
    exact Or.inr ⟨hearly, rfl, rfl, (Instant.after?_eq_some_iff _ _ _).1 hnext⟩

theorem fired_of_fire? (h : c.fire? now = some (fired, c')) : fired = !decide (now < c.next) := by
  rcases fire?_eq_some h with ⟨hearly, rfl, _⟩ | ⟨hdue, rfl, _⟩
  · simp [hearly]
  · simp [hdue]

theorem period_of_fire? (h : c.fire? now = some (fired, c')) : c'.period = c.period := by
  rcases fire?_eq_some h with ⟨_, _, rfl⟩ | ⟨_, _, hperiod, _⟩
  · rfl
  · exact hperiod

/-- A cadence has a result unless the step after it would lie past the end of time. -/
theorem isSome_fire?_iff (c : Cadence) (now : Instant) :
    (c.fire? now).isSome ↔ (¬ now < c.next →
      (c.anchor now).micros.toNat + c.period.micros.toNat < UInt64.size) := by
  by_cases hearly : now < c.next
  · simp [fire?_of_early hearly, hearly]
  · rw [fire?_of_due hearly, Option.isSome_map, Instant.after?]
    split <;> simp_all

theorem isSome_fire? (h : now.micros.toNat + c.period.micros.toNat < UInt64.size) :
    (c.fire? now).isSome := by
  rw [isSome_fire?_iff]
  intro hdue
  have hanchor := (anchor_bounds hdue).2
  omega

/-- Two periods are in the range of milliseconds if they are in that of microseconds. -/
theorem toNat_tolerance (h : 2 * c.period.micros.toNat < UInt64.size) :
    c.tolerance.toNat = 2 * (c.period.micros.toNat / 1000) := by
  have hthousand : (1000 : UInt64).toNat = 1000 := rfl
  have htwo : (2 : UInt64).toNat = 2 := rfl
  simp only [tolerance, Duration.millis, Duration.ofMillis, UInt64.toNat_div, UInt64.toNat_mul,
    hthousand, htwo]
  simp only [UInt64.size] at h
  omega

theorem isBehind_iff (c : Cadence) (now : Instant) :
    c.isBehind now = true ↔
      c.next.micros.toNat / 1000 + c.tolerance.toNat < now.micros.toNat / 1000 := by
  have hthousand : (1000 : UInt64).toNat = 1000 := rfl
  have hnext := c.next.micros.toNat_lt
  -- both are times in milliseconds, so their sum is far from the end of the range
  have htolerance : c.tolerance.toNat ≤ 2 ^ 64 / 1000 := by
    rw [tolerance, Duration.millis, UInt64.toNat_div, hthousand]
    exact Nat.div_le_div_right (Nat.le_of_lt (UInt64.toNat_lt _))
  rw [isBehind, decide_eq_true_iff, UInt64.lt_iff_toNat_lt, UInt64.toNat_add, Instant.millis,
    Instant.millis, UInt64.toNat_div, UInt64.toNat_div, hthousand, Nat.mod_eq_of_lt (by omega)]

theorem anchor_of_punctual (h : now.micros.toNat = c.next.micros.toNat) :
    c.anchor now = c.next := by
  rw [anchor, if_neg]
  rw [isBehind_iff, h]
  omega

theorem anchor_of_lt (hmillis : 1000 ≤ c.period.micros.toNat)
    (hrange : 2 * c.period.micros.toNat < UInt64.size)
    (hlate : now.micros.toNat < c.next.micros.toNat + c.period.micros.toNat) :
    c.anchor now = c.next := by
  rw [anchor, if_neg]
  rw [isBehind_iff, toNat_tolerance hrange]
  omega

/-- The next step is due at the first multiple of the period from `t` on. -/
structure Poised (c : Cadence) (t : Nat) : Prop where
  dvd : c.period.micros.toNat ∣ c.next.micros.toNat
  le : t ≤ c.next.micros.toNat
  lt : c.next.micros.toNat < t + c.period.micros.toNat

theorem poised_start {period : Duration} (h : 0 < period.micros.toNat) :
    (start period).Poised 0 where
  dvd := Nat.dvd_zero _
  le := Nat.zero_le _
  lt := Nat.lt_add_left 0 h

namespace Poised

variable {t : Nat}

theorem of_le {u : Nat} (h : c.Poised t) (htu : t ≤ u) (hu : u ≤ c.next.micros.toNat) :
    c.Poised u where
  dvd := h.dvd
  le := hu
  lt := Nat.lt_of_lt_of_le h.lt (Nat.add_le_add_right htu _)

/-- The cadence once its deadline has passed and moved on by one period. -/
theorem succ {u : Nat} (h : c.Poised t) (hperiod : c'.period = c.period)
    (hnext : c'.next.micros.toNat = c.next.micros.toNat + c.period.micros.toNat)
    (hle : c.next.micros.toNat ≤ u) (hlt : u < c.next.micros.toNat + c.period.micros.toNat) :
    c'.Poised (u + 1) where
  dvd := by
    rw [hperiod, hnext]
    exact Nat.dvd_add h.dvd (Nat.dvd_refl _)
  le := by omega
  lt := by
    rw [hperiod]
    omega

theorem eq_mul (h : c.Poised (t + 1)) :
    c.next.micros.toNat = (t / c.period.micros.toNat + 1) * c.period.micros.toNat := by
  obtain ⟨k, hk⟩ := h.dvd
  have hle := h.le
  have hlt := h.lt
  rw [Nat.mul_comm] at hk
  cases k with
  | zero => omega
  | succ k =>
      have hmul := Nat.add_one_mul k c.period.micros.toNat
      rw [Nat.div_eq_of_lt_le (k := k) (by omega) (by omega), hk]

theorem not_dvd {u : Nat} (h : c.Poised t) (htu : t ≤ u) (hu : u < c.next.micros.toNat) :
    ¬ c.period.micros.toNat ∣ u := by
  intro hdvd
  have hlt := h.lt
  have hzero := Nat.eq_zero_of_dvd_of_lt (Nat.dvd_sub h.dvd hdvd) (by omega)
  omega

/-- A step that is not late leaves the cadence poised for the next one, and is taken at the multiples
of the period only. -/
theorem fire? (h : c.Poised now.micros.toNat) (hfire : c.fire? now = some (fired, c')) :
    c'.Poised (now.micros.toNat + 1) ∧
      (fired = true ↔ c.period.micros.toNat ∣ now.micros.toNat) := by
  have hlt := h.lt
  rcases fire?_eq_some hfire with ⟨hearly, rfl, rfl⟩ | ⟨hdue, rfl, hperiod, hnext⟩
  · rw [Instant.lt_iff_toNat_lt] at hearly
    refine ⟨h.of_le (Nat.le_succ _) hearly, ?_⟩
    simp [h.not_dvd (Nat.le_refl _) hearly]
  · have hnow : now.micros.toNat = c.next.micros.toNat :=
      Nat.le_antisymm h.le (le_of_not_lt_next hdue)
    rw [anchor_of_punctual hnow] at hnext
    refine ⟨h.succ hperiod hnext (by omega) (by omega), ?_⟩
    rw [hnow]
    simp [h.dvd]

/-- A cadence that is not late finds the end of time when it has no room for the next multiple. -/
theorem isSome_fire?_iff (h : c.Poised now.micros.toNat) :
    (c.fire? now).isSome ↔
      (now.micros.toNat / c.period.micros.toNat + 1) * c.period.micros.toNat < UInt64.size := by
  rw [Cadence.isSome_fire?_iff]
  by_cases hearly : now < c.next
  · rw [← (h.of_le (Nat.le_succ _) (Instant.lt_iff_toNat_lt.1 hearly)).eq_mul]
    exact ⟨fun _ => c.next.micros.toNat_lt_size, fun _ hdue => absurd hearly hdue⟩
  · have hnow : now.micros.toNat = c.next.micros.toNat :=
      Nat.le_antisymm h.le (le_of_not_lt_next hearly)
    rw [anchor_of_punctual hnow, Nat.add_one_mul, hnow, Nat.div_mul_cancel h.dvd]
    exact ⟨fun hroom => hroom hearly, fun hroom _ => hroom⟩

/-- A step that is less than a period late keeps its cadence in phase, and counts the periods that
have begun. -/
theorem fire?_of_late (h : c.Poised (t + 1)) (hmillis : 1000 ≤ c.period.micros.toNat)
    (hle : t ≤ now.micros.toNat) (hgap : now.micros.toNat ≤ t + c.period.micros.toNat)
    (hfire : c.fire? now = some (fired, c')) :
    c'.Poised (now.micros.toNat + 1) ∧
      now.micros.toNat / c.period.micros.toNat = t / c.period.micros.toNat + fired.toNat := by
  have hpos : 0 < c.period.micros.toNat := by omega
  have hahead := h.le
  have hnear := h.lt
  have hnext := h.eq_mul
  rcases fire?_eq_some hfire with ⟨hearly, rfl, rfl⟩ | ⟨hdue, rfl, hperiod, hmoved⟩
  · rw [Instant.lt_iff_toNat_lt] at hearly
    have hpoised : c'.Poised (now.micros.toNat + 1) := h.of_le (by omega) hearly
    have hsame := Nat.eq_of_mul_eq_mul_right hpos (hpoised.eq_mul.symm.trans hnext)
    exact ⟨hpoised, Nat.add_right_cancel hsame⟩
  · have hpast := le_of_not_lt_next hdue
    have hanchor := anchor_bounds hdue
    have hsize := c'.next.micros.toNat_lt_size
    have hperiods := Nat.le_of_dvd (by omega) h.dvd
    -- there was room for two periods, so the tolerance has not wrapped around
    rw [anchor_of_lt hmillis (by omega) (by omega)] at hmoved
    have hpoised : c'.Poised (now.micros.toNat + 1) :=
      h.succ hperiod hmoved (by omega) (by omega)
    have hlater : (now.micros.toNat / c.period.micros.toNat + 1) * c.period.micros.toNat =
        (t / c.period.micros.toNat + 1 + 1) * c.period.micros.toNat := by
      rw [← hperiod, ← hpoised.eq_mul, hperiod, hmoved, hnext, ← Nat.add_one_mul]
    exact ⟨hpoised, Nat.add_right_cancel (Nat.eq_of_mul_eq_mul_right hpos hlater)⟩

end Poised

end Cadence

end Luminaire
