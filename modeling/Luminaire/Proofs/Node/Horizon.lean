import Luminaire.Proofs.Broker.Staggered
import Luminaire.Proofs.Node.Pacing

/-!
# No time runs over

Times are words, and a node computes with them in several units. `Word.add?`, `Word.mul?` and
`Word.sub?` are the operations on numbers, with a result only if it is a word. Where a cadence has
two periods left before the end of time, it comes to the same with them as without
(`Cadence.fireExact?_eq`): nothing that it computes on the way has left the range of a word. The time
until the next deadline is computed only if it lies ahead, and a plan only if it has room, so for
these there is nothing to be assumed.

How far the deadlines reach is a fact about a whole run. A deadline moves only when a step is taken,
and then to at most one period after the tick in which it is taken. Ticks may come in any order, so
it need not be the last of them that bounds the deadline, but one of them does (`Cadence.Within`).
-/

namespace Luminaire

namespace Word

/-- The word for a number, if it is in range. -/
def ofNat? (m : Nat) : Option UInt64 := if m < UInt64.size then some (UInt64.ofNat m) else none

/-- The sum of two words, if it is a word. -/
def add? (a b : UInt64) : Option UInt64 := ofNat? (a.toNat + b.toNat)

/-- The product of two words, if it is a word. -/
def mul? (a b : UInt64) : Option UInt64 := ofNat? (a.toNat * b.toNat)

/-- The difference of two words, if it is not negative. -/
def sub? (a b : UInt64) : Option UInt64 :=
  if b.toNat ≤ a.toNat then ofNat? (a.toNat - b.toNat) else none

theorem ofNat?_toNat (a : UInt64) : ofNat? a.toNat = some a := by
  rw [ofNat?, if_pos a.toNat_lt_size, UInt64.ofNat_toNat]

variable {a b : UInt64}

theorem add?_of_lt (h : a.toNat + b.toNat < UInt64.size) : add? a b = some (a + b) := by
  have hsum : (a + b).toNat = a.toNat + b.toNat := by
    rw [UInt64.toNat_add, Nat.mod_eq_of_lt h]
  rw [add?, ← hsum, ofNat?_toNat]

theorem mul?_of_lt (h : a.toNat * b.toNat < UInt64.size) : mul? a b = some (a * b) := by
  have hproduct : (a * b).toNat = a.toNat * b.toNat := by
    rw [UInt64.toNat_mul, Nat.mod_eq_of_lt h]
  rw [mul?, ← hproduct, ofNat?_toNat]

theorem sub?_of_le (h : b.toNat ≤ a.toNat) : sub? a b = some (a - b) := by
  have hdifference : (a - b).toNat = a.toNat - b.toNat :=
    UInt64.toNat_sub_of_le a b (UInt64.le_iff_toNat_le.2 h)
  rw [sub?, if_pos h, ← hdifference, ofNat?_toNat]

end Word

namespace Cadence

variable {c : Cadence} {now : Instant}

/-- `fire?` with operations that have no result out of range: the doubled period in milliseconds,
the same in microseconds, the deadline with this delay, and the deadline after it. -/
def fireExact? (c : Cadence) (now : Instant) : Option (Bool × Cadence) :=
  if now < c.next then some (false, c)
  else do
    let doubled ← Word.mul? c.period.millis 2
    let delay ← Word.mul? doubled 1000
    let limit ← Word.add? c.next.millis (Duration.mk delay).millis
    let anchor := if limit < now.millis then now else c.next
    let next ← Word.add? anchor.micros c.period.micros
    return (true, { c with next := ⟨next⟩ })

theorem fireExact?_eq (h : now.micros.toNat + 2 * c.period.micros.toNat < UInt64.size) :
    c.fireExact? now = c.fire? now := by
  by_cases hearly : now < c.next
  · rw [fireExact?, if_pos hearly, fire?_of_early hearly]
  · have hsize : UInt64.size = 2 ^ 64 := rfl
    have htwo : (2 : UInt64).toNat = 2 := rfl
    have hthousand : (1000 : UInt64).toNat = 1000 := rfl
    have hmillis : c.period.millis.toNat = c.period.micros.toNat / 1000 := UInt64.toNat_div _ _
    have hdoubled : Word.mul? c.period.millis 2 = some (c.period.millis * 2) := by
      apply Word.mul?_of_lt
      rw [hmillis, htwo]
      omega
    have hdelay : Word.mul? (c.period.millis * 2) 1000 = some (c.period.millis * 2 * 1000) := by
      apply Word.mul?_of_lt
      rw [UInt64.toNat_mul, hmillis, htwo, hthousand]
      omega
    have hlimit : Word.add? c.next.millis (Duration.mk (c.period.millis * 2 * 1000)).millis =
        some (c.next.millis + c.tolerance) := by
      apply Word.add?_of_lt
      show c.next.millis.toNat + c.tolerance.toNat < UInt64.size
      rw [toNat_tolerance (by omega), Instant.millis, UInt64.toNat_div, hthousand]
      have hnext := c.next.micros.toNat_lt_size
      omega
    have hanchor : (if c.next.millis + c.tolerance < now.millis then now else c.next) =
        c.anchor now := by
      simp only [anchor, isBehind, decide_eq_true_eq]
    -- the next deadline is counted from the present at the latest
    have hafter : (c.anchor now).micros.toNat + c.period.micros.toNat < UInt64.size := by
      have hle := (anchor_bounds hearly).2
      omega
    rw [fireExact?, if_neg hearly, fire?_of_due hearly, Instant.after?, if_pos hafter]
    simp only [hdoubled, hdelay, hlimit, hanchor, Word.add?_of_lt hafter, Option.bind_eq_bind,
      Option.bind_some, Option.map_some]
    rfl

/-- A deadline is the start of time before the first tick, and from then on at most a period after
one of the ticks. -/
def Within (c : Cadence) (times : List Instant) : Prop :=
  times = [] ∧ c.next = Instant.zero ∨
    ∃ time ∈ times, c.next.micros.toNat ≤ time.micros.toNat + c.period.micros.toNat

theorem within_start (period : Duration) : (start period).Within [] := Or.inl ⟨rfl, rfl⟩

theorem Within.fire? {times : List Instant} {fired : Bool} {c' : Cadence} (h : c.Within times)
    (hfire : c.fire? now = some (fired, c')) : c'.Within (times ++ [now]) := by
  rcases fire?_eq_some hfire with ⟨hearly, -, rfl⟩ | ⟨hdue, -, hperiod, hnext⟩
  · rcases h with ⟨-, hzero⟩ | ⟨time, hmem, hle⟩
    · -- no time lies before the first deadline
      rw [hzero, Instant.lt_iff_toNat_lt] at hearly
      exact absurd hearly (Nat.not_lt_zero _)
    · exact Or.inr ⟨time, List.mem_append_left [now] hmem, hle⟩
  · refine Or.inr ⟨now, List.mem_append_right times List.mem_cons_self, ?_⟩
    rw [hnext, hperiod]
    exact Nat.add_le_add_right (anchor_bounds hdue).2 _

/-- The latest of the ticks bounds the deadline, whichever of them it is. -/
theorem Within.le_of_latest {times : List Instant} {latest : Instant} (h : c.Within times)
    (hmem : latest ∈ times) (hlatest : ∀ time ∈ times, time ≤ latest) :
    c.next.micros.toNat ≤ latest.micros.toNat + c.period.micros.toNat := by
  rcases h with ⟨rfl, -⟩ | ⟨time, htime, hle⟩
  · cases hmem
  · exact Nat.le_trans hle (Nat.add_le_add_right (Instant.le_iff_toNat_le.1 (hlatest time htime)) _)

end Cadence

/-- `idleTime` with a difference that has no result below zero. -/
def Pacer.idleExact? {n : Nat} {η : Type} (p : Pacer n η) (now : Instant) : Option Duration :=
  if now < p.nextDeadline then (Word.sub? p.nextDeadline.micros now.micros).map Duration.mk
  else some Duration.zero

theorem Pacer.idleExact?_eq {n : Nat} {η : Type} (p : Pacer n η) (now : Instant) :
    p.idleExact? now = some (p.idleTime now) := by
  rw [idleExact?, idleTime, Instant.untilFrom]
  split
  next hahead =>
    rw [Word.sub?_of_le (Nat.le_of_lt (Instant.lt_iff_toNat_lt.1 hahead)), Option.map_some]
  next => rfl

namespace Subscription

/-- A plan has the groups in their order, each at exactly its delay after the connection, and there
is a plan unless the last delay reaches past the end of time. -/
theorem Plan.schedule?_exact (now : Instant) :
    (Plan.schedule? now = none ↔ UInt64.size ≤ now.micros.toNat + 20000000) ∧
      ∀ plan, Plan.schedule? now = some plan →
        plan.appointments.map (fun a => (a.group, a.time.micros.toNat)) =
          groups.map fun g => (g, now.micros.toNat + g.delay.micros.toNat) := by
  constructor
  · rw [← Nat.not_lt, ← Plan.isSome_schedule? now, Option.not_isSome_iff_eq_none]
  · intro plan hplan
    obtain ⟨appointments, happointments, rfl⟩ := Option.map_eq_some_iff.1 hplan
    obtain ⟨hgroups, htimes⟩ := appointments_of_mapM happointments
    rw [← hgroups, List.map_map]
    refine List.map_congr_left fun a ha => ?_
    rw [Function.comp_apply, htimes a ha]

end Subscription

/-- The time of a tick. -/
def Event.tickTime? {θ τ : Type} : Event θ τ → Option Instant
  | .tick now _ => some now
  | _ => none

namespace Session

variable {n : Nat} {η θ τ : Type}

/-- The times of the ticks, the first one first. -/
def tickTimes (events : List (Event θ τ)) : List Instant := events.filterMap Event.tickTime?

theorem tickTimes_cons (e : Event θ τ) (rest : List (Event θ τ)) :
    tickTimes (e :: rest) = e.tickTime?.toList ++ tickTimes rest := by
  cases e <;> rfl

variable [Transport τ]

theorem exists_fire?_of_tick? {s s' : Session n η} {now : Instant} {t : τ}
    (h : s.tick? now t = some s') (job : Job) :
    ∃ fired, (s.pacer.cadence job).fire? now = some (fired, s'.pacer.cadence job) := by
  obtain ⟨turn, hturn, rfl⟩ := Option.map_eq_some_iff.1 h
  have hafter : s.pacer.tickAfter? ⟨id, (⟨t, s.calls⟩ : Recorded τ)⟩ now =
      some (turn.beat now, turn.pacer) := Option.map_eq_some_iff.2 ⟨turn, hturn, rfl⟩
  exact ⟨_, (Pacer.tickAfter?_eq_some hafter).2.2.2.2 job⟩

theorem isSome_tick? {s : Session n η} {now : Instant}
    (h : ∀ job, ((s.pacer.cadence job).fire? now).isSome) (t : τ) : (s.tick? now t).isSome := by
  have hafter := (Pacer.isSome_tickAfter?_iff s.pacer ⟨id, (⟨t, s.calls⟩ : Recorded τ)⟩ now).2 h
  rw [Pacer.tickAfter?, Option.isSome_map] at hafter
  rw [tick?, Option.isSome_map]
  exact hafter

variable [HueSource η] [HueSource θ]

/-- Nothing but a tick moves a cadence. -/
theorem pacer_cadence_step? {s s' : Session n η} {e : Event θ τ} (h : s.step? e = some s')
    (htick : e.tickTime? = none) (job : Job) : s'.pacer.cadence job = s.pacer.cadence job := by
  cases e with
  | connack now =>
      rw [step?] at h
      obtain ⟨node, -, rfl⟩ := Option.map_eq_some_iff.1 h
      cases job <;> rfl
  | storeUniverse slots =>
      rw [step?] at h
      split at h
      · obtain rfl := Option.some.inj h
        cases job <;> rfl
      · obtain rfl := Option.some.inj h
        rfl
  | tick now t => cases htick
  | _ =>
      obtain rfl := Option.some.inj h
      cases job <;> rfl

theorem within_step? {s s' : Session n η} {e : Event θ τ} {times : List Instant} {job : Job}
    (hs : (s.pacer.cadence job).Within times) (h : s.step? e = some s') :
    (s'.pacer.cadence job).Within (times ++ e.tickTime?.toList) ∧
      (s'.pacer.cadence job).period = (s.pacer.cadence job).period := by
  cases htime : e.tickTime? with
  | none =>
      rw [pacer_cadence_step? h htime job, Option.toList_none, List.append_nil]
      exact ⟨hs, rfl⟩
  | some time =>
      cases e with
      | tick now t =>
          obtain rfl := Option.some.inj htime
          obtain ⟨fired, hfire⟩ := exists_fire?_of_tick? h job
          exact ⟨hs.fire? hfire, Cadence.period_of_fire? hfire⟩
      | _ => cases htime

theorem within_run? {s s' : Session n η} {events : List (Event θ τ)} {times : List Instant}
    {job : Job} (hs : (s.pacer.cadence job).Within times) (h : s.run? events = some s') :
    (s'.pacer.cadence job).Within (times ++ tickTimes events) ∧
      (s'.pacer.cadence job).period = (s.pacer.cadence job).period := by
  induction events generalizing s times with
  | nil =>
      obtain rfl := Option.some.inj h
      rw [tickTimes, List.filterMap_nil, List.append_nil]
      exact ⟨hs, rfl⟩
  | cons e rest ih =>
      obtain ⟨s₁, hfirst, hrest⟩ := Option.bind_eq_some_iff.1 h
      obtain ⟨hs₁, hperiod₁⟩ := within_step? hs hfirst
      obtain ⟨hs', hperiod⟩ := ih hs₁ hrest
      rw [tickTimes_cons, ← List.append_assoc]
      exact ⟨hs', hperiod.trans hperiod₁⟩

/-- However a node is driven, also by ticks that go back in time, no deadline is ever more than its
period after the latest tick. A tick that has two periods of each job left before the end of time is
taken, and nothing that it computes leaves the range of a word. A plan is made unless it reaches past
the end of time, and its times are exact. -/
theorem times_stay_in_range (settings : Settings) (options : Options) (hues : η)
    (events : List (Event θ τ)) (s : Session n η)
    (hrun : (powerUp n settings options hues).run? events = some s) :
    (∀ latest ∈ tickTimes events, (∀ time ∈ tickTimes events, time ≤ latest) → ∀ job,
      (s.pacer.cadence job).next.micros.toNat ≤
        latest.micros.toNat + (options.every job).micros.toNat) ∧
    (∀ (now : Instant) (t : τ),
      (∀ job, now.micros.toNat + 2 * (options.every job).micros.toNat < UInt64.size) →
      ∃ s', s.tick? now t = some s' ∧
        (∀ job, ∃ fired,
          (s.pacer.cadence job).fireExact? now = some (fired, s'.pacer.cadence job)) ∧
        s'.pacer.idleExact? now = some (s'.pacer.idleTime now)) ∧
    ∀ now, (Subscription.Plan.schedule? now = none ↔
        UInt64.size ≤ now.micros.toNat + 20000000) ∧
      ∀ plan, Subscription.Plan.schedule? now = some plan →
        plan.appointments.map (fun a => (a.group, a.time.micros.toNat)) =
          Subscription.groups.map fun g => (g, now.micros.toNat + g.delay.micros.toNat) := by
  have hcadence : ∀ job, (s.pacer.cadence job).Within (tickTimes events) ∧
      (s.pacer.cadence job).period = options.every job := by
    intro job
    have hstart := Pacer.cadence_start (Node.powerUp n settings options hues) job
    have hwithin : ((powerUp n settings options hues).pacer.cadence job).Within [] := by
      rw [powerUp, hstart]
      exact Cadence.within_start _
    obtain ⟨hs, hperiod⟩ := within_run? hwithin hrun
    refine ⟨hs, hperiod.trans ?_⟩
    rw [powerUp, hstart]
    rfl
  refine ⟨fun latest hmem hlatest job => ?_, fun now t hroom => ?_,
    Subscription.Plan.schedule?_exact⟩
  · obtain ⟨hwithin, hperiod⟩ := hcadence job
    rw [← hperiod]
    exact hwithin.le_of_latest hmem hlatest
  · have hrange : ∀ job, now.micros.toNat + 2 * (s.pacer.cadence job).period.micros.toNat <
        UInt64.size := by
      intro job
      rw [(hcadence job).2]
      exact hroom job
    have hfires : ∀ job, ((s.pacer.cadence job).fire? now).isSome := by
      intro job
      have hjob := hrange job
      exact Cadence.isSome_fire? (by omega)
    obtain ⟨s', hs'⟩ := Option.isSome_iff_exists.1 (isSome_tick? hfires t)
    refine ⟨s', hs', fun job => ?_, s'.pacer.idleExact?_eq now⟩
    obtain ⟨fired, hfire⟩ := exists_fire?_of_tick? hs' job
    exact ⟨fired, (Cadence.fireExact?_eq (hrange job)).trans hfire⟩

/-- The second tick goes back in time and moves nothing; the latest tick is the first one. -/
theorem times_stay_in_range_back :
    ∃ s : Session 1 SplitMix, (powerUp 1 Settings.blank Options.standard ⟨0⟩).run?
        [(.tick ⟨900000⟩ {} : Event SplitMix Steady), .connack ⟨50⟩, .tick ⟨7⟩ {}] = some s ∧
      (s.pacer.cadence .process).next.micros.toNat ≤ 920000 ∧
      (s.pacer.cadence .poll).next.micros.toNat ≤ 1000000 ∧
      (s.tick? ⟨950000⟩ ({} : Steady)).isSome := by
  obtain ⟨s, hrun⟩ : ∃ s : Session 1 SplitMix,
      (powerUp 1 Settings.blank Options.standard ⟨0⟩).run?
        [(.tick ⟨900000⟩ {} : Event SplitMix Steady), .connack ⟨50⟩, .tick ⟨7⟩ {}] = some s :=
    Option.isSome_iff_exists.1 rfl
  obtain ⟨hdeadlines, hticks, -⟩ := times_stay_in_range Settings.blank Options.standard _ _ s hrun
  have hdeadline := hdeadlines ⟨900000⟩ (by decide) (by decide)
  obtain ⟨s', hs', -⟩ := hticks ⟨950000⟩ {} (by
    intro job
    cases job <;> decide)
  exact ⟨s, hrun, hdeadline .process, hdeadline .poll, Option.isSome_iff_exists.2 ⟨s', hs'⟩⟩

end Session

end Luminaire
