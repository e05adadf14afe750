import Luminaire.Strobe
import Mathlib.Data.Nat.Init

/-!
# The beat of the strobe

The strobe keeps its count when the level changes, although every level has its own interval, and
steady levels freeze the count in between. So a level may find any count that another level has
left. No level counts further than its interval, and none has an interval above 25, which bounds the
count in every state. From there on the level is in step: it toggles on its first beat, as soon as
the count has reached the interval, and from the first beat on once an interval.
-/

namespace Luminaire

namespace Strobe

/-- Some ticks, each at its own level: what is asked of the line on each, the first one first, and
the strobe after all of them. -/
def run (s : Strobe) : List UInt8 → List (Option Line) × Strobe
  | [] => ([], s)
  | level :: rest =>
      let (line, s) := s.tick level
      let (lines, s) := s.run rest
      (line :: lines, s)

theorem run_cons (s : Strobe) (level : UInt8) (rest : List UInt8) :
    s.run (level :: rest) =
      ((s.tick level).1 :: ((s.tick level).2.run rest).1, ((s.tick level).2.run rest).2) := rfl

theorem interval?_eq_none_iff (level : UInt8) :
    interval? level = none ↔ level = 0 ∨ 25 < level := by
  rw [interval?]
  split
  next h => exact iff_of_true rfl h
  next h => exact iff_of_false nofun h

/-- The interval of a level that flashes, as a number of ticks. -/
theorem toNat_interval {level interval : UInt8} (h : interval? level = some interval) :
    interval.toNat = 50 / (2 * level.toNat) := by
  have hflashes : ¬ (level = 0 ∨ maxLevel < level) := by
    rintro hsteady
    rw [(interval?_eq_none_iff level).2 hsteady] at h
    cases h
  have hlevel : level.toNat ≤ 25 :=
    UInt8.le_iff_toNat_le.1 (UInt8.not_lt.1 (not_or.1 hflashes).2)
  rw [interval?, if_neg hflashes] at h
  obtain rfl := Option.some.inj h
  rw [UInt8.toNat_div, UInt8.toNat_mul, Nat.mul_comm 2]
  show 50 / (level.toNat * 2 % 2 ^ 8) = _
  rw [Nat.mod_eq_of_lt (by omega)]

theorem interval_bounds {level interval : UInt8} (h : interval? level = some interval) :
    0 < interval.toNat ∧ interval.toNat ≤ 25 := by
  have hflashes : ¬ (level = 0 ∨ 25 < level) := by
    rw [← interval?_eq_none_iff, h]
    exact nofun
  rw [not_or, UInt8.not_lt, UInt8.le_iff_toNat_le, ← UInt8.toNat_inj] at hflashes
  obtain ⟨hpos, hle⟩ := hflashes
  have hpos : 0 < level.toNat := Nat.pos_of_ne_zero hpos
  have hle : level.toNat ≤ 25 := hle
  rw [toNat_interval h]
  exact ⟨Nat.div_pos (by omega) (by omega), Nat.div_le_of_le_mul (by omega)⟩

/-- The count, as far as a level can count. -/
def InRange (s : Strobe) : Prop := s.counter.toNat ≤ 25

theorem inRange_start : start.InRange := Nat.zero_le 25

/-- Counting one tick more stays within a byte, and the seconds are not over. -/
theorem InRange.toNat_succ {s : Strobe} (h : s.InRange) :
    (s.counter + 1).toNat = s.counter.toNat + 1 := by
  have hle : s.counter.toNat ≤ 25 := h
  rw [UInt8.toNat_add]
  show (s.counter.toNat + 1) % 2 ^ 8 = _
  omega

theorem InRange.succ_mod {s : Strobe} (h : s.InRange) :
    (s.counter + 1) % ticksPerSecond = s.counter + 1 := by
  have hle : s.counter.toNat ≤ 25 := h
  apply UInt8.toNat_inj.1
  rw [UInt8.toNat_mod, h.toNat_succ]
  show (s.counter.toNat + 1) % 50 = _
  omega

/-- A tick of a level that flashes: it toggles if the count has reached the interval, and starts to
count anew. -/
theorem InRange.tick_of_flashing {s : Strobe} (h : s.InRange) {level interval : UInt8}
    (hinterval : interval? level = some interval) :
    if interval.toNat ≤ s.counter.toNat then
      (s.tick level).1 = some .toggle ∧ (s.tick level).2.counter.toNat = 1
    else (s.tick level).1 = none ∧ (s.tick level).2.counter.toNat = s.counter.toNat + 1 := by
  rw [Strobe.tick_of_flashing s hinterval, h.succ_mod]
  simp only [UInt8.le_iff_toNat_le]
  split
  · exact ⟨rfl, rfl⟩
  · exact ⟨rfl, h.toNat_succ⟩

theorem InRange.tick {s : Strobe} (h : s.InRange) (level : UInt8) : (s.tick level).2.InRange := by
  cases hinterval : interval? level with
  | none =>
      rw [tick_of_steady s hinterval]
      exact h
  | some interval =>
      have hbound := (interval_bounds hinterval).2
      have htick := h.tick_of_flashing hinterval
      rw [InRange]
      split at htick <;> omega

theorem InRange.run {s : Strobe} (h : s.InRange) (levels : List UInt8) :
    (s.run levels).2.InRange := by
  induction levels generalizing s with
  | nil => exact h
  | cons level rest ih => exact ih (h.tick level)

/-- What is asked of the line on a tick, if it toggles on the tick `first` and from there on once an
interval. -/
def beat (first interval tick : Nat) : Option Line :=
  if first ≤ tick ∧ interval ∣ tick - first then some .toggle else none

/-- The tick on which the count has reached the interval. Ticks are counted from one. -/
def firstBeat (interval count : Nat) : Nat := max 1 (interval + 1 - count)

/-- What is asked of the line on `k` ticks of one interval. -/
def beats (interval count k : Nat) : List (Option Line) :=
  (List.range' 1 k).map (beat (firstBeat interval count) interval)

theorem beats_succ (interval count k : Nat) :
    beats interval count (k + 1) =
      beat (firstBeat interval count) interval 1 ::
        (List.range' 1 k).map fun tick => beat (firstBeat interval count) interval (tick + 1) := by
  rw [beats, List.range'_succ, List.map_cons, ← List.map_add_range', List.map_map]
  simp only [Function.comp_def, Nat.add_comm 1]

/-- Short of the interval there is one tick less to wait. -/
theorem beats_of_lt {interval count : Nat} (h : count < interval) (k : Nat) :
    beats interval count (k + 1) = none :: beats interval (count + 1) k := by
  have hfirst : firstBeat interval count = firstBeat interval (count + 1) + 1 := by
    simp only [firstBeat]
    omega
  have hpos : 0 < firstBeat interval (count + 1) := by
    simp only [firstBeat]
    omega
  rw [beats_succ, beat, if_neg (by omega)]
  simp only [beats, beat, hfirst, Nat.add_le_add_iff_right, Nat.add_sub_add_right]
  rfl

/-- After a toggle the next one is an interval away. -/
theorem beats_of_le {interval count : Nat} (hpos : 0 < interval) (h : interval ≤ count) (k : Nat) :
    beats interval count (k + 1) = some .toggle :: beats interval 1 k := by
  have hfirst : firstBeat interval count = 1 := by
    simp only [firstBeat]
    omega
  have hnext : firstBeat interval 1 = interval := by
    simp only [firstBeat]
    omega
  rw [beats_succ, beats, hfirst, hnext]
  congr 1
  refine List.map_congr_left fun tick htick => ?_
  have htick : 0 < tick := (List.mem_range'_1.1 htick).1
  have hdvd : interval ∣ tick ↔ interval ≤ tick ∧ interval ∣ tick - interval :=
    ⟨fun hd => ⟨Nat.le_of_dvd htick hd, Nat.dvd_sub hd (Nat.dvd_refl _)⟩,
      fun ⟨hle, hd⟩ => (Nat.dvd_sub_iff_left hle (Nat.dvd_refl _)).1 hd⟩
  simp only [beat, Nat.add_sub_cancel, ← hdvd]
  simp

/-- A level that is held keeps its beat from the count that it finds. -/
theorem InRange.fst_run_replicate {s : Strobe} (h : s.InRange) {level interval : UInt8}
    (hinterval : interval? level = some interval) (k : Nat) :
    (s.run (List.replicate k level)).1 = beats interval.toNat s.counter.toNat k := by
  induction k generalizing s with
  | zero => rfl
  | succ k ih =>
      have hpos := (interval_bounds hinterval).1
      have htick := h.tick_of_flashing hinterval
      rw [List.replicate_succ, run_cons]
      simp only [ih (h.tick level)]
      split at htick
      next hle => rw [beats_of_le hpos hle, htick.1, htick.2]
      next hlt => rw [beats_of_lt (Nat.lt_of_not_le hlt), htick.1, htick.2]

theorem beats_append (interval count k : Nat) :
    beats interval count (k + 1) =
      beats interval count k ++ [beat (firstBeat interval count) interval (k + 1)] := by
  rw [beats, List.range'_1_concat, List.map_append, Nat.add_comm 1 k]
  rfl

theorem count_toggle_beat {first interval tick : Nat} :
    [beat first interval tick].count (some .toggle) =
      if first ≤ tick ∧ interval ∣ tick - first then 1 else 0 := by
  rw [beat]
  split <;> rfl

/-- Every interval that is over adds a toggle to the first one. -/
theorem count_toggle_beats (interval count k : Nat) :
    (beats interval count k).count (some .toggle) =
      if k < firstBeat interval count then 0 else 1 + (k - firstBeat interval count) / interval := by
  have hpos : 0 < firstBeat interval count := Nat.lt_of_lt_of_le Nat.one_pos (Nat.le_max_left _ _)
  generalize hfirst : firstBeat interval count = first at hpos ⊢
  induction k with
  | zero => rw [if_pos hpos]; rfl
  | succ k ih =>
      rw [beats_append, List.count_append, ih, count_toggle_beat, hfirst]
      rcases Nat.lt_trichotomy (k + 1) first with hlt | rfl | hgt
      · have hbefore : ¬ first ≤ k + 1 := by omega
        simp [hlt, hbefore, Nat.lt_of_succ_lt hlt]
      · simp
      · have hsub : k + 1 - first = k - first + 1 := by omega
        have hle : first ≤ k := by omega
        rw [if_neg (Nat.not_lt.2 hle), if_neg (Nat.lt_asymm hgt), hsub, Nat.succ_div, Nat.add_assoc]
        simp [Nat.le_of_lt hgt]

/-- Whatever levels a new strobe has been ticked at, its count does not go beyond 25, so it is never
wrapped, neither by the byte nor by the number of ticks in a second, and a level that does not flash
holds the line on and freezes the count. A level that flashes and is held from there on toggles the
line on its first beat and then once an interval, and on no other tick. -/
theorem toggles_on_the_beat (levels : List UInt8) :
    (start.run levels).2.counter ≤ 25 ∧
    let s := (start.run levels).2
    (s.counter + 1).toNat = s.counter.toNat + 1 ∧
    (s.counter + 1) % ticksPerSecond = s.counter + 1 ∧
    (∀ level : UInt8, level = 0 ∨ 25 < level → s.tick level = (some .on, s)) ∧
    ∀ level : UInt8, 1 ≤ level → level ≤ 25 → ∀ k : Nat,
      let interval := 50 / (2 * level.toNat)
      let first := max 1 (interval + 1 - s.counter.toNat)
      let lines := (s.run (List.replicate k level)).1
      lines = (List.range' 1 k).map
        (fun tick =>
          if first ≤ tick ∧ interval ∣ tick - first then some Line.toggle else none) ∧
      lines.count (some .toggle) = if k < first then 0 else 1 + (k - first) / interval := by
  have hs : (start.run levels).2.InRange := inRange_start.run levels
  refine ⟨UInt8.le_iff_toNat_le.2 hs, hs.toNat_succ, hs.succ_mod, fun level hsteady => ?_,
    fun level hpos hle k => ?_⟩
  · exact tick_of_steady _ ((interval?_eq_none_iff level).2 hsteady)
  · cases hinterval : interval? level with
    | none =>
        rcases (interval?_eq_none_iff level).1 hinterval with rfl | hlt
        · exact absurd hpos (by decide)
        · exact absurd hle (UInt8.not_le.2 hlt)
    | some interval =>
        have hbeats := hs.fst_run_replicate hinterval k
        have hcount := count_toggle_beats interval.toNat (start.run levels).2.counter.toNat k
        rw [← hbeats] at hcount
        rw [toNat_interval hinterval] at hbeats hcount
        exact ⟨hbeats, hcount⟩

/-- A level of seven toggles every third tick. The count that it finds is the one that the level one
had reached and that a level of thirty did not touch. -/
theorem toggles_on_the_beat_seven :
    let s := (start.run [1, 1, 30]).2
    s.counter = 2 ∧ (25 : UInt8) < 30 ∧ s.tick 30 = (some .on, s) ∧
      (1 : UInt8) ≤ 7 ∧ (7 : UInt8) ≤ 25 ∧
      (s.run (List.replicate 8 7)).1 =
        [none, some .toggle, none, none, some .toggle, none, none, some .toggle] ∧
      (s.run (List.replicate 1000 7)).1.count (some .toggle) = 333 := by
  intro s
  obtain ⟨-, -, -, hsteady, hbeats⟩ := toggles_on_the_beat [1, 1, 30]
  refine ⟨rfl, by decide, hsteady 30 (Or.inr (by decide)), by decide, by decide, ?_, ?_⟩
  · exact (hbeats 7 (by decide) (by decide) 8).1.trans (by decide +kernel)
  · exact (hbeats 7 (by decide) (by decide) 1000).2.trans (by decide +kernel)

end Strobe

end Luminaire
