import Luminaire.Proofs.Node.Cadence

/-!
# How late is too late

A step that is at most two periods late is meant to be caught up. A cadence compares times in whole
milliseconds, and so it drops the part below a millisecond three times: from the deadline, from the
present, and from the period before it is doubled. If the period is a whole number of milliseconds,
the first two cannot make two periods look like more, and every step that is at most two periods
late is caught up. If it is not, some step that is no later than that is skipped.
-/

namespace Luminaire

namespace Cadence

variable {c : Cadence} {now : Instant}

/-- The time by which a step that is taken at `now` is late. -/
def lateness (c : Cadence) (now : Instant) : Nat := now.micros.toNat - c.next.micros.toNat

/-- The part of the period that is made of whole milliseconds. -/
def wholePeriod (c : Cadence) : Nat := c.period.micros.toNat / 1000 * 1000

/-- A step is taken at `now`, and the one after it is due one period after its deadline. -/
def CatchesUp (c : Cadence) (now : Instant) : Prop :=
  ∃ c', c.fire? now = some (true, c') ∧ c'.period = c.period ∧
    c'.next.micros.toNat = c.next.micros.toNat + c.period.micros.toNat

/-- A step is taken at `now`, and the one after it is due one period later. -/
def StartsAnew (c : Cadence) (now : Instant) : Prop :=
  ∃ c', c.fire? now = some (true, c') ∧ c'.period = c.period ∧
    c'.next.micros.toNat = now.micros.toNat + c.period.micros.toNat

/-- Whatever its deadline, a step is caught up if it is at most two periods late. -/
def Forgives (period : Duration) : Prop :=
  ∀ next now : Instant, next ≤ now →
    now.micros.toNat + 2 * period.micros.toNat < UInt64.size →
    (⟨next, period⟩ : Cadence).lateness now ≤ 2 * period.micros.toNat →
    (⟨next, period⟩ : Cadence).CatchesUp now

section Due

variable (hdue : c.next ≤ now)
  (hroom : now.micros.toNat + 2 * c.period.micros.toNat < UInt64.size)

include hdue hroom

/-- A step that is due is taken, and the one after it is counted from the anchor. -/
theorem exists_fire? :
    ∃ c', c.fire? now = some (true, c') ∧ c'.period = c.period ∧
      c'.next.micros.toNat = (c.anchor now).micros.toNat + c.period.micros.toNat := by
  have hlate : ¬ now < c.next := fun hearly => Instant.lt_iff_not_le.1 hearly hdue
  have hsome : (c.fire? now).isSome := isSome_fire? (by omega)
  obtain ⟨⟨fired, c'⟩, hfire⟩ := Option.isSome_iff_exists.1 hsome
  rcases fire?_eq_some hfire with ⟨hearly, -, -⟩ | ⟨-, rfl, hperiod, hnext⟩
  · exact absurd hearly hlate
  · exact ⟨c', hfire, hperiod, hnext⟩

theorem catchesUp_or_startsAnew : c.CatchesUp now ∨ c.StartsAnew now := by
  obtain ⟨c', hfire, hperiod, hnext⟩ := exists_fire? hdue hroom
  rw [anchor] at hnext
  split at hnext
  · exact Or.inr ⟨c', hfire, hperiod, hnext⟩
  · exact Or.inl ⟨c', hfire, hperiod, hnext⟩

/-- A step is caught up if two periods cover its delay when all three are cut to milliseconds. -/
theorem catchesUp_iff :
    c.CatchesUp now ↔
      now.micros.toNat / 1000 ≤
        c.next.micros.toNat / 1000 + 2 * (c.period.micros.toNat / 1000) := by
  obtain ⟨c', hfire, hperiod, hnext⟩ := exists_fire? hdue hroom
  have hbehind := c.isBehind_iff now
  rw [toNat_tolerance (by omega)] at hbehind
  rw [anchor] at hnext
  constructor
  · rintro ⟨c'', hfire', -, hkept⟩
    obtain ⟨-, rfl⟩ := Prod.mk.inj (Option.some.inj (hfire.symm.trans hfire'))
    split at hnext
    next hskip =>
      have hlater := hbehind.1 hskip
      omega
    next hkeep =>
      exact Nat.le_of_not_lt fun hlater => hkeep (hbehind.2 hlater)
  · intro hcovered
    have hkeep : ¬ c.isBehind now = true := fun hskip => by
      have hlater := hbehind.1 hskip
      omega
    rw [if_neg hkeep] at hnext
    exact ⟨c', hfire, hperiod, hnext⟩

theorem catchesUp_of_lateness_le (h : c.lateness now ≤ 2 * c.wholePeriod) : c.CatchesUp now := by
  have hle := Instant.le_iff_toNat_le.1 hdue
  rw [catchesUp_iff hdue hroom]
  rw [lateness, wholePeriod] at h
  omega

theorem not_catchesUp_of_le_lateness (h : 2 * c.wholePeriod + 1000 ≤ c.lateness now) :
    ¬ c.CatchesUp now := by
  rw [catchesUp_iff hdue hroom]
  rw [lateness, wholePeriod] at h
  omega

end Due

theorem forgives_of_dvd {period : Duration} (h : 1000 ∣ period.micros.toNat) : Forgives period := by
  intro next now hdue hroom hlate
  have hwhole : (⟨next, period⟩ : Cadence).wholePeriod = period.micros.toNat :=
    Nat.div_mul_cancel h
  exact catchesUp_of_lateness_le hdue hroom (by rwa [hwhole])

/-- The deadline lies just before a full millisecond, so that what the doubled period has beyond
whole milliseconds carries the present over one more. -/
theorem dvd_of_forgives {period : Duration}
    (hroom : 4 * period.micros.toNat + 999 < UInt64.size) (h : Forgives period) :
    1000 ∣ period.micros.toNat := by
  have hsize : UInt64.size = 2 ^ 64 := rfl
  have hdeadline : (UInt64.ofNat 999).toNat = 999 := rfl
  have hpresent : (UInt64.ofNat (999 + 2 * period.micros.toNat)).toNat =
      999 + 2 * period.micros.toNat := by
    rw [UInt64.toNat_ofNat']
    exact Nat.mod_eq_of_lt (by omega)
  have hdue : (⟨UInt64.ofNat 999⟩ : Instant) ≤ ⟨UInt64.ofNat (999 + 2 * period.micros.toNat)⟩ := by
    rw [Instant.le_iff_toNat_le, hdeadline, hpresent]
    omega
  have hnear : (UInt64.ofNat (999 + 2 * period.micros.toNat)).toNat + 2 * period.micros.toNat <
      UInt64.size := by
    rw [hpresent]
    omega
  have hcaught := h _ _ hdue hnear (by rw [lateness, hpresent, hdeadline]; omega)
  rw [catchesUp_iff hdue hnear, hpresent, hdeadline] at hcaught
  dsimp only at hcaught
  omega

/-- A step that is due is caught up exactly if two periods cover its delay in whole milliseconds,
and otherwise begins anew. So it is caught up if it is no later than the whole milliseconds of two
periods, and it is not if it is a millisecond later than that. That a delay of two periods is always
caught up is true of the periods that are whole milliseconds, and of no others. -/
theorem caught_up_iff_covered (c : Cadence) (now : Instant) (hdue : c.next ≤ now)
    (hroom : now.micros.toNat + 2 * c.period.micros.toNat < UInt64.size) :
    (c.CatchesUp now ↔
      now.micros.toNat / 1000 ≤
        c.next.micros.toNat / 1000 + 2 * (c.period.micros.toNat / 1000)) ∧
    (c.CatchesUp now ∨ c.StartsAnew now) ∧
    (c.lateness now ≤ 2 * c.wholePeriod → c.CatchesUp now) ∧
    (2 * c.wholePeriod + 1000 ≤ c.lateness now → ¬ c.CatchesUp now) ∧
    ∀ period : Duration,
      (1000 ∣ period.micros.toNat → Forgives period) ∧
      (4 * period.micros.toNat + 999 < UInt64.size → Forgives period →
        1000 ∣ period.micros.toNat) :=
  ⟨catchesUp_iff hdue hroom, catchesUp_or_startsAnew hdue hroom,
    catchesUp_of_lateness_le hdue hroom, not_catchesUp_of_le_lateness hdue hroom,
    fun _ => ⟨forgives_of_dvd, dvd_of_forgives⟩⟩

/-- The lamps of a common node are two periods late, and catch up. -/
theorem caught_up_iff_covered_standard :
    let c : Cadence := ⟨⟨20000⟩, Options.standard.processEvery⟩
    c.next ≤ ⟨60000⟩ ∧ c.lateness ⟨60000⟩ = 2 * c.period.micros.toNat ∧ c.CatchesUp ⟨60000⟩ ∧
      Forgives Options.standard.processEvery := by
  intro c
  have hdue : c.next ≤ ⟨60000⟩ := by decide
  obtain ⟨-, -, hcaught, -, hperiods⟩ := caught_up_iff_covered c ⟨60000⟩ hdue (by decide)
  exact ⟨hdue, by decide, hcaught (by decide), (hperiods _).1 (by decide)⟩

/-- With a period just below two milliseconds, a delay of two periods reads as four milliseconds
where two are tolerated, and the steps that were missed are skipped. -/
theorem backlog_skipped_early :
    ¬ ∀ period : Duration, 0 < period.micros.toNat → Forgives period := by
  intro h
  have hdue : (⟨1999⟩ : Instant) ≤ ⟨5997⟩ := by decide
  have hcaught := h ⟨1999⟩ (by decide) ⟨1999⟩ ⟨5997⟩ hdue (by decide) (by decide)
  exact absurd ((catchesUp_iff hdue (by decide)).1 hcaught) (by decide)

end Cadence

end Luminaire
