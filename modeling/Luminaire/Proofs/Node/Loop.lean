import Luminaire.Proofs.Node.Pacing
import Mathlib.Data.Nat.Nth

/-!
# A pacer that sleeps between its ticks

A tick reports when the next step is due and how long that takes. The report can be relied on: a tick
before the deadline does nothing, and one that is not before it does a job
(`Pacer.exists_did_iff`). So a loop that sleeps as it is told never wakes up in vain.

From the start of time on such a loop is never late. Its cadences stay poised, and the deadline after
a tick is the first time ahead that is due for either of them. The times of the ticks are thus all
the multiples of the two periods, one after the other.
-/

namespace Luminaire

/-- One of the jobs is due at the time: it is a multiple of its period. -/
def Options.Due (o : Options) (time : Nat) : Prop := ∃ job, (o.every job).micros.toNat ∣ time

namespace Options

instance (o : Options) : DecidablePred o.Due := fun time =>
  decidable_of_iff
    ((o.every .process).micros.toNat ∣ time ∨ (o.every .poll).micros.toNat ∣ time)
    ⟨fun h => h.elim (fun h => ⟨.process, h⟩) fun h => ⟨.poll, h⟩, fun ⟨job, h⟩ =>
      match job with
      | .process => Or.inl h
      | .poll => Or.inr h⟩

/-- A due time with no other between it and a later time is the last of those before the later
one. -/
theorem count_due {o : Options} {x y : Nat} (hx : o.Due x) (hxy : x < y)
    (hnone : ∀ u, x + 1 ≤ u → u < y → ¬ o.Due u) :
    Nat.count o.Due y = Nat.count o.Due x + 1 := by
  rw [← Nat.count_succ_eq_succ_count_iff.2 hx]
  refine Nat.le_antisymm (Nat.le_of_not_lt fun hlt => ?_) (Nat.count_monotone _ hxy)
  obtain ⟨u, hu, hdue⟩ := Nat.exists_of_count_lt_count hlt
  exact hnone u hu.1 hu.2 hdue

end Options

namespace Pacer

variable {n : Nat} {η τ : Type}

/-- What the ticks report of a pacer that is ticked at `now` first, and then whenever it has slept as
long as it said, once after each pause. There is no result if a time lies past the last one. -/
def loop? [Transport τ] (p : Pacer n η) (now : Instant) :
    List (Pause n η τ) → Option (List Beat)
  | [] => some []
  | pause :: rest => do
      let (b, p) ← p.tickAfter? pause now
      let later ← now.after? b.idle
      let beats ← p.loop? later rest
      return b :: beats

theorem nextDeadline_le (p : Pacer n η) (job : Job) :
    p.nextDeadline.micros.toNat ≤ (p.cadence job).next.micros.toNat := by
  rw [nextDeadline, Instant.toNat_earlier]
  cases job with
  | process => exact Nat.min_le_left _ _
  | poll => exact Nat.min_le_right _ _

theorem exists_next_eq (p : Pacer n η) :
    ∃ job, (p.cadence job).next.micros.toNat = p.nextDeadline.micros.toNat := by
  rw [nextDeadline, Instant.toNat_earlier]
  rcases Nat.le_total p.process.next.micros.toNat p.poll.next.micros.toNat with hle | hle
  · exact ⟨.process, (Nat.min_eq_left hle).symm⟩
  · exact ⟨.poll, (Nat.min_eq_right hle).symm⟩

section Ticks

variable [Transport τ] {p p' : Pacer n η} {pause : Pause n η τ} {now : Instant} {b : Beat}

theorem did_iff (h : p.tickAfter? pause now = some (b, p')) (job : Job) :
    b.did job = true ↔ (p.cadence job).next ≤ now := by
  obtain ⟨-, -, -, -, hfire⟩ := tickAfter?_eq_some h
  simp [Cadence.fired_of_fire? (hfire job), Instant.lt_iff_not_le]

/-- A tick does a job exactly if the deadline has come. -/
theorem exists_did_iff (h : p.tickAfter? pause now = some (b, p')) :
    (∃ job, b.did job = true) ↔ p.nextDeadline ≤ now := by
  simp only [did_iff h, Instant.le_iff_toNat_le]
  constructor
  · rintro ⟨job, hjob⟩
    exact Nat.le_trans (nextDeadline_le p job) hjob
  · intro hle
    obtain ⟨job, hjob⟩ := exists_next_eq p
    exact ⟨job, hjob ▸ hle⟩

/-- The deadline that the last tick reports is that of the pacer it leaves behind. -/
theorem deadline_of_run? {ticks : List (Pause n η τ × Instant)} {beats : List Beat} {last : Beat}
    (h : p.run? ticks = some (beats, p')) (hlast : beats.getLast? = some last) :
    last.deadline = p'.nextDeadline := by
  induction ticks generalizing p beats with
  | nil =>
      obtain ⟨rfl, rfl⟩ := Prod.mk.inj (Option.some.inj h)
      simp at hlast
  | cons tick rest ih =>
      obtain ⟨b, p₁, later, htick, hrest, rfl⟩ := run?_cons_eq_some h
      cases rest with
      | nil =>
          obtain ⟨rfl, rfl⟩ := Prod.mk.inj (Option.some.inj hrest)
          obtain rfl := Option.some.inj hlast
          exact (tickAfter?_eq_some htick).2.1
      | cons tick' rest =>
          obtain ⟨b', -, later', -, -, rfl⟩ := run?_cons_eq_some hrest
          rw [List.getLast?_cons_cons] at hlast
          exact ih hrest hlast

/-- Both cadences of the pacer keep to the options, and wait for the first multiple of their period
from `t` on. -/
structure Poised (o : Options) (p : Pacer n η) (t : Nat) : Prop where
  period : ∀ job, (p.cadence job).period = o.every job
  cadence : ∀ job, (p.cadence job).Poised t

variable {o : Options}

/-- A tick of a pacer that is not late does the jobs whose periods it is a multiple of. -/
theorem Poised.did_iff (h : p.Poised o now.micros.toNat)
    (htick : p.tickAfter? pause now = some (b, p')) (job : Job) :
    b.did job = true ↔ (o.every job).micros.toNat ∣ now.micros.toNat := by
  have hfire := (tickAfter?_eq_some htick).2.2.2.2 job
  rw [← h.period job]
  exact ((h.cadence job).fire? hfire).2

theorem Poised.tick (h : p.Poised o now.micros.toNat)
    (htick : p.tickAfter? pause now = some (b, p')) : p'.Poised o (now.micros.toNat + 1) where
  period job := by
    rw [Cadence.period_of_fire? ((tickAfter?_eq_some htick).2.2.2.2 job)]
    exact h.period job
  cadence job := ((h.cadence job).fire? ((tickAfter?_eq_some htick).2.2.2.2 job)).1

theorem Poised.isSome_tickAfter?_iff (h : p.Poised o now.micros.toNat) (pause : Pause n η τ) :
    (p.tickAfter? pause now).isSome ↔ ∀ job,
      (now.micros.toNat / (o.every job).micros.toNat + 1) * (o.every job).micros.toNat <
        UInt64.size := by
  rw [Pacer.isSome_tickAfter?_iff]
  refine forall_congr' fun job => ?_
  rw [(h.cadence job).isSome_fire?_iff, h.period job]

/-- The deadline of a poised pacer is the first time from `t` on at which a job is due. -/
theorem Poised.due_nextDeadline {t : Nat} (h : p.Poised o t) :
    t ≤ p.nextDeadline.micros.toNat ∧ o.Due p.nextDeadline.micros.toNat ∧
      ∀ u, t ≤ u → u < p.nextDeadline.micros.toNat → ¬ o.Due u := by
  obtain ⟨job, hjob⟩ := exists_next_eq p
  refine ⟨?_, ⟨job, ?_⟩, ?_⟩
  · rw [← hjob]
    exact (h.cadence job).le
  · rw [← hjob, ← h.period job]
    exact (h.cadence job).dvd
  · rintro u htu hu ⟨job, hdvd⟩
    rw [← h.period job] at hdvd
    exact (h.cadence job).not_dvd htu (Nat.lt_of_lt_of_le hu (nextDeadline_le p job)) hdvd

theorem Poised.of_le {t u : Nat} (h : p.Poised o t) (htu : t ≤ u)
    (hu : u ≤ p.nextDeadline.micros.toNat) : p.Poised o u where
  period := h.period
  cadence job := (h.cadence job).of_le htu (Nat.le_trans hu (nextDeadline_le p job))

/-- Whoever sleeps as long as a tick at a due time says wakes up at the next due time. -/
theorem Poised.wake (h : p.Poised o now.micros.toNat) (hdue : o.Due now.micros.toNat)
    (htick : p.tickAfter? pause now = some (b, p')) :
    ∃ later, now.after? b.idle = some later ∧ p'.Poised o later.micros.toNat ∧
      o.Due later.micros.toNat ∧
      Nat.count o.Due later.micros.toNat = Nat.count o.Due now.micros.toNat + 1 := by
  obtain ⟨-, -, hidle, -, -⟩ := tickAfter?_eq_some htick
  have hpoised := h.tick htick
  obtain ⟨hahead, hnext, hnone⟩ := hpoised.due_nextDeadline
  refine ⟨p'.nextDeadline, ?_, hpoised.of_le hahead (Nat.le_refl _), hnext,
    Options.count_due hdue hahead hnone⟩
  rw [Instant.after?_eq_some_iff, hidle, idleTime, Instant.toNat_untilFrom]
  omega

theorem loop?_cons_eq_some {rest : List (Pause n η τ)} {beats : List Beat}
    (h : p.loop? now (pause :: rest) = some beats) :
    ∃ b p₁ later others, p.tickAfter? pause now = some (b, p₁) ∧
      now.after? b.idle = some later ∧ p₁.loop? later rest = some others ∧
      beats = b :: others := by
  simp only [loop?, Option.bind_eq_bind, Option.bind_eq_some_iff] at h
  obtain ⟨⟨b, p₁⟩, htick, later, hlater, others, hothers, hend⟩ := h
  exact ⟨b, p₁, later, others, htick, hlater, hothers, (Option.some.inj hend).symm⟩

/-- A loop that starts at a due time ticks at all those that follow, and does what is due then. -/
theorem Poised.loop (h : p.Poised o now.micros.toNat) (hdue : o.Due now.micros.toNat)
    {pauses : List (Pause n η τ)} {beats : List Beat} (hloop : p.loop? now pauses = some beats) :
    beats.length = pauses.length ∧ ∀ k b, beats[k]? = some b →
      b.now.micros.toNat = Nat.nth o.Due (Nat.count o.Due now.micros.toNat + k) ∧
      (∀ job, b.did job = true ↔ (o.every job).micros.toNat ∣ b.now.micros.toNat) ∧
      ∃ job, b.did job = true := by
  induction pauses generalizing p now beats with
  | nil =>
      obtain rfl := Option.some.inj hloop
      simp
  | cons pause rest ih =>
      obtain ⟨first, p₁, later, others, htick, hlater, hothers, rfl⟩ := loop?_cons_eq_some hloop
      obtain ⟨_, hawake, hpoised, hnext, hcount⟩ := h.wake hdue htick
      obtain rfl := Option.some.inj (hlater.symm.trans hawake)
      obtain ⟨hlength, hbeats⟩ := ih hpoised hnext hothers
      refine ⟨congrArg (· + 1) hlength, fun k b hb => ?_⟩
      cases k with
      | zero =>
          obtain rfl := Option.some.inj hb
          obtain ⟨job, hjob⟩ := hdue
          rw [(tickAfter?_eq_some htick).1, Nat.add_zero, Nat.nth_count ⟨job, hjob⟩]
          exact ⟨rfl, h.did_iff htick, job, (h.did_iff htick job).2 hjob⟩
      | succ k =>
          rw [← Nat.add_assoc, Nat.add_right_comm, ← hcount]
          exact hbeats k b hb

/-- The loop goes on as long as there is room for the next multiples of both periods. -/
theorem Poised.isSome_loop?_iff (h : p.Poised o now.micros.toNat) (hdue : o.Due now.micros.toNat)
    (pauses : List (Pause n η τ)) :
    (p.loop? now pauses).isSome ↔ ∀ k < pauses.length, ∀ job,
      (Nat.nth o.Due (Nat.count o.Due now.micros.toNat + k) / (o.every job).micros.toNat + 1) *
        (o.every job).micros.toNat < UInt64.size := by
  induction pauses generalizing p now with
  | nil => simp [loop?]
  | cons pause rest ih =>
      rw [List.length_cons, Nat.forall_lt_succ_left, Nat.add_zero, Nat.nth_count hdue,
        ← h.isSome_tickAfter?_iff pause]
      cases htick : p.tickAfter? pause now with
      | none => simp [loop?, htick]
      | some turn =>
          obtain ⟨b, p₁⟩ := turn
          obtain ⟨later, hlater, hpoised, hnext, hcount⟩ := h.wake hdue htick
          have hloop : p.loop? now (pause :: rest) =
              (p₁.loop? later rest).map fun others => b :: others := by
            simp only [loop?, htick, hlater, Option.bind_eq_bind, Option.bind_some,
              Option.map_eq_bind]
            rfl
          rw [hloop, Option.isSome_map, ih hpoised hnext, hcount]
          simp only [Option.isSome_some, true_and]
          refine forall₂_congr fun k _ => ?_
          rw [Nat.add_right_comm, Nat.add_assoc]

end Ticks

theorem poised_start (node : Node n η)
    (hevery : ∀ job, 0 < (node.options.every job).micros.toNat) :
    (start node).Poised node.options 0 where
  period job := by rw [cadence_start]; rfl
  cadence job := by
    rw [cadence_start]
    exact Cadence.poised_start (hevery job)

/-- A loop that sleeps as long as it is told ticks at the multiples of the two periods, one after the
other and as long as there is room for the next ones; it does each job at the multiples of its
period, so that no tick is in vain. And whenever else a pacer may have been ticked, the next tick does
a job exactly if the deadline that was reported last has come, and nothing but the jobs it reports. -/
theorem loop_ticks_when_due [Transport τ] (node : Node n η)
    (hevery : ∀ job, 0 < (node.options.every job).micros.toNat) :
    (∀ pauses : List (Pause n η τ),
      (((start node).loop? Instant.zero pauses).isSome ↔ ∀ k < pauses.length, ∀ job,
        (Nat.nth node.options.Due k / (node.options.every job).micros.toNat + 1) *
          (node.options.every job).micros.toNat < UInt64.size) ∧
      ∀ beats, (start node).loop? Instant.zero pauses = some beats →
        beats.length = pauses.length ∧ ∀ k b, beats[k]? = some b →
          b.now.micros.toNat = Nat.nth node.options.Due k ∧
          (∀ job, b.did job = true ↔
            (node.options.every job).micros.toNat ∣ b.now.micros.toNat) ∧
          ∃ job, b.did job = true) ∧
    ∀ (ticks : List (Pause n η τ × Instant)) beats p,
      (start node).run? ticks = some (beats, p) → ∀ last, beats.getLast? = some last →
        ∀ (pause : Pause n η τ) now,
          ((now < last.deadline ∨ ∀ job,
              now.micros.toNat + (node.options.every job).micros.toNat < UInt64.size) →
            (p.tickAfter? pause now).isSome) ∧
          ∀ b p', p.tickAfter? pause now = some (b, p') →
            ((∃ job, b.did job = true) ↔ last.deadline ≤ now) ∧
            p'.node = (pause.change p.node).worked b pause.transport := by
  have hpoised : (start node).Poised node.options Instant.zero.micros.toNat :=
    poised_start node hevery
  have hdue : node.options.Due Instant.zero.micros.toNat := ⟨.process, Nat.dvd_zero _⟩
  have hfirst : ∀ k, Nat.count node.options.Due Instant.zero.micros.toNat + k = k := Nat.zero_add
  constructor
  · intro pauses
    constructor
    · simpa only [hfirst] using hpoised.isSome_loop?_iff hdue pauses
    · intro beats hbeats
      simpa only [hfirst] using hpoised.loop hdue hbeats
  · intro ticks beats p hrun last hlast pause now
    rw [deadline_of_run? hrun hlast]
    refine ⟨fun hcase => ?_, fun b p' htick =>
      ⟨exists_did_iff htick, (tickAfter?_eq_some htick).2.2.2.1⟩⟩
    rw [isSome_tickAfter?_iff]
    intro job
    rcases hcase with hearly | hroom
    · rw [Cadence.isSome_fire?_iff]
      rw [Instant.lt_iff_toNat_lt] at hearly
      exact fun hdue => absurd
        (Instant.lt_iff_toNat_lt.2 (Nat.lt_of_lt_of_le hearly (nextDeadline_le p job))) hdue
    · have hperiod := ((runs_of_run? hrun).2 job).period_eq
      rw [cadence_start] at hperiod
      apply Cadence.isSome_fire?
      rw [hperiod]
      exact hroom job

/-- With steps every two microseconds and polls every three, the fifth tick of the loop is at six and
does both. A pacer that was ticked late and then earlier keeps to its deadline all the same. -/
theorem loop_ticks_when_due_two_three :
    let options : Options := { Options.standard with processEvery := ⟨2⟩, pollEvery := ⟨3⟩ }
    let p : Pacer 1 SplitMix := start (Node.powerUp 1 Settings.blank options ⟨0⟩)
    let pause : Pause 1 SplitMix Steady := ⟨id, {}⟩
    (∀ job, 0 < (options.every job).micros.toNat) ∧
      (∃ beats, p.loop? Instant.zero (List.replicate 5 pause) = some beats ∧
        ∀ b, beats[4]? = some b →
          b.now.micros.toNat = 6 ∧ b.did .process = true ∧ b.did .poll = true) ∧
      ∃ beats p₁, p.run? [(pause, ⟨10⟩), (pause, ⟨5⟩)] = some (beats, p₁) ∧
        ∀ now b p₂, p₁.tickAfter? pause now = some (b, p₂) →
          ((∃ job, b.did job = true) ↔ (⟨4⟩ : Instant) ≤ now) := by
  intro options p pause
  have hevery : ∀ job, 0 < (options.every job).micros.toNat := by
    intro job
    cases job <;> decide
  obtain ⟨hloop, hticks⟩ := @loop_ticks_when_due 1 SplitMix Steady _
    (Node.powerUp 1 Settings.blank options ⟨0⟩) hevery
  refine ⟨hevery, ?_, ?_⟩
  · obtain ⟨hsome, hbeats⟩ := hloop (List.replicate 5 pause)
    have hfifth : Nat.nth options.Due 4 = 6 :=
      have hcount : Nat.count options.Due 6 = 4 := by decide
      hcount ▸ Nat.nth_count (by decide)
    have hroom : ∀ k < (List.replicate 5 pause).length, ∀ job,
        (Nat.nth options.Due k / (options.every job).micros.toNat + 1) *
          (options.every job).micros.toNat < UInt64.size := by
      intro k hk job
      have hlt : Nat.nth options.Due k < 7 :=
        Nat.nth_lt_of_lt_count (Nat.lt_of_lt_of_eq hk (by decide))
      generalize Nat.nth options.Due k = x at hlt
      cases job with
      | process =>
          show (x / 2 + 1) * 2 < 18446744073709551616
          omega
      | poll =>
          show (x / 3 + 1) * 3 < 18446744073709551616
          omega
    obtain ⟨beats, hrun⟩ := Option.isSome_iff_exists.1 (hsome.2 hroom)
    refine ⟨beats, hrun, fun b hb => ?_⟩
    obtain ⟨htime, hdid, -⟩ := (hbeats beats hrun).2 4 b hb
    have hnow : b.now.micros.toNat = 6 := htime.trans hfifth
    exact ⟨hnow, (hdid .process).2 (hnow ▸ (by decide : 2 ∣ 6)),
      (hdid .poll).2 (hnow ▸ (by decide : 3 ∣ 6))⟩
  · have hdeadlines : (p.run? [(pause, ⟨10⟩), (pause, ⟨5⟩)]).map
        (fun r => r.1.getLast?.map Beat.deadline) = some (some ⟨4⟩) := by decide
    obtain ⟨⟨beats, p₁⟩, hrun, hlast⟩ := Option.map_eq_some_iff.1 hdeadlines
    obtain ⟨last, hmem, hdeadline⟩ := Option.map_eq_some_iff.1 hlast
    refine ⟨beats, p₁, hrun, fun now b p₂ htick => ?_⟩
    rw [← hdeadline]
    exact ((hticks _ beats p₁ hrun last hmem pause now).2 b p₂ htick).1

end Pacer

end Luminaire
