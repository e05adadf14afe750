import Luminaire.Proofs.Node.Session
import Mathlib.Data.List.Chain

/-!
# The pace of a node

A pacer has two jobs, each with a cadence of its own, and what a job does in a tick depends on nothing
but its cadence and the time (`tickAfter?_eq_some`). So the pace of a job can be read off the times of
the ticks, whatever becomes of the node and its transport between them.

A job is never done too often: each time its deadline moves on by a period at least, so that no more
steps can have been taken than periods have begun (`Cadence.Runs.countP_le`). And if the ticks begin
at the start of time and leave no gap wider than a period, it is done just as often as that: after
each tick its cadence is poised for the next one (`Cadence.Runs.poised`).
-/

namespace Luminaire

/-- What a paced node does again and again. -/
inductive Job where
  | process
  | poll
deriving DecidableEq

/-- The time between two steps of a job. -/
def Options.every (o : Options) : Job → Duration
  | .process => o.processEvery
  | .poll => o.pollEvery

/-- What a tick reports. -/
structure Beat where
  now : Instant
  processed : Bool
  polled : Bool
  /-- The time at which the next step is due. -/
  deadline : Instant
  /-- How long there is nothing to do. -/
  idle : Duration

/-- The job was done in the tick. -/
def Beat.did (b : Beat) : Job → Bool
  | .process => b.processed
  | .poll => b.polled

namespace Job

/-- The beats in which the job was done. -/
def done (job : Job) (beats : List Beat) : List Beat := beats.filter fun b => b.did job

variable {job : Job} {b : Beat} {later : List Beat}

@[simp] theorem done_nil (job : Job) : job.done [] = [] := rfl

theorem done_cons_of_did (h : b.did job = true) : job.done (b :: later) = b :: job.done later :=
  List.filter_cons_of_pos h

theorem done_cons_of_not_did (h : b.did job = false) : job.done (b :: later) = job.done later :=
  List.filter_cons_of_neg (by simp [h])

end Job

/-- What the jobs in a beat make of a node: the lamps come first, and the outputs last. -/
def Node.worked {n : Nat} {η τ : Type} [Transport τ] (node : Node n η) (b : Beat) (t : τ) :
    Node n η :=
  let lit := if b.did .process then node.process.2 else node
  let told := if b.did .poll then (lit.poll b.now t).node else lit
  told.flush.1

/-- What has become of a node and its transport since the tick before. -/
structure Pause (n : Nat) (η τ : Type) where
  change : Node n η → Node n η
  transport : τ

namespace Pacer

variable {n : Nat} {η τ : Type}

def cadence (p : Pacer n η) : Job → Cadence
  | .process => p.process
  | .poll => p.poll

def Turn.beat (turn : Turn n η τ) (now : Instant) : Beat where
  now := now
  processed := turn.processed
  polled := turn.polled
  deadline := turn.pacer.nextDeadline
  idle := turn.pacer.idleTime now

/-- A tick after a pause: what it reports, and the pacer after it. -/
def tickAfter? [Transport τ] (p : Pacer n η) (pause : Pause n η τ) (now : Instant) :
    Option (Beat × Pacer n η) :=
  (({ p with node := pause.change p.node } : Pacer n η).tick? now pause.transport).map fun turn =>
    (turn.beat now, turn.pacer)

/-- What some ticks report, the first one first, and the pacer after them. -/
def run? [Transport τ] (p : Pacer n η) :
    List (Pause n η τ × Instant) → Option (List Beat × Pacer n η)
  | [] => some ([], p)
  | (pause, now) :: rest => do
      let (b, p) ← p.tickAfter? pause now
      let (beats, p) ← p.run? rest
      return (b :: beats, p)

section Ticks

variable [Transport τ]

/-- All that a tick can do: it fires the cadences of both jobs, does the jobs that are due, and says
so. -/
theorem tickAfter?_eq_some {p p' : Pacer n η} {pause : Pause n η τ} {now : Instant} {b : Beat}
    (h : p.tickAfter? pause now = some (b, p')) :
    b.now = now ∧ b.deadline = p'.nextDeadline ∧ b.idle = p'.idleTime now ∧
      p'.node = (pause.change p.node).worked b pause.transport ∧
      ∀ job, (p.cadence job).fire? now = some (b.did job, p'.cadence job) := by
  obtain ⟨turn, hturn, heq⟩ := Option.map_eq_some_iff.1 h
  obtain ⟨rfl, rfl⟩ := Prod.mk.inj heq
  simp only [tick?, Option.bind_eq_bind, Option.bind_eq_some_iff] at hturn
  obtain ⟨⟨processed, process⟩, hprocess, ⟨polled, poll⟩, hpoll, hend⟩ := hturn
  obtain rfl := Option.some.inj hend
  refine ⟨rfl, rfl, rfl, ?_, fun job => ?_⟩
  · cases processed <;> cases polled <;> rfl
  · cases job with
    | process => exact hprocess
    | poll => exact hpoll

/-- A tick has a result if both cadences have one. -/
theorem isSome_tickAfter?_iff (p : Pacer n η) (pause : Pause n η τ) (now : Instant) :
    (p.tickAfter? pause now).isSome ↔ ∀ job, ((p.cadence job).fire? now).isSome := by
  constructor
  · intro h job
    obtain ⟨⟨b, p'⟩, htick⟩ := Option.isSome_iff_exists.1 h
    exact Option.isSome_iff_exists.2 ⟨_, (tickAfter?_eq_some htick).2.2.2.2 job⟩
  · intro h
    obtain ⟨process, hprocess⟩ := Option.isSome_iff_exists.1 (h .process)
    obtain ⟨poll, hpoll⟩ := Option.isSome_iff_exists.1 (h .poll)
    simp only [cadence] at hprocess hpoll
    rw [tickAfter?, Option.isSome_map, tick?, hprocess, hpoll]
    rfl

theorem run?_cons_eq_some {p p' : Pacer n η} {pause : Pause n η τ} {now : Instant}
    {rest : List (Pause n η τ × Instant)} {beats : List Beat}
    (h : p.run? ((pause, now) :: rest) = some (beats, p')) :
    ∃ b p₁ later, p.tickAfter? pause now = some (b, p₁) ∧ p₁.run? rest = some (later, p') ∧
      beats = b :: later := by
  simp only [run?, Option.bind_eq_bind, Option.bind_eq_some_iff] at h
  obtain ⟨⟨b, p₁⟩, htick, ⟨later, p₂⟩, hrest, hend⟩ := h
  obtain ⟨rfl, rfl⟩ := Prod.mk.inj (Option.some.inj hend)
  exact ⟨b, p₁, later, htick, hrest, rfl⟩

/-- Ticks that all come long enough before the end of time have a result. -/
theorem isSome_run? (p : Pacer n η) (ticks : List (Pause n η τ × Instant))
    (h : ∀ tick ∈ ticks, ∀ job,
      tick.2.micros.toNat + (p.cadence job).period.micros.toNat < UInt64.size) :
    (p.run? ticks).isSome := by
  induction ticks generalizing p with
  | nil => rfl
  | cons tick rest ih =>
      obtain ⟨pause, now⟩ := tick
      have hfirst : (p.tickAfter? pause now).isSome :=
        (isSome_tickAfter?_iff p pause now).2 fun job =>
          Cadence.isSome_fire? (h (pause, now) List.mem_cons_self job)
      obtain ⟨⟨b, p₁⟩, htick⟩ := Option.isSome_iff_exists.1 hfirst
      have hrest : (p₁.run? rest).isSome := by
        refine ih p₁ fun tick hmem job => ?_
        rw [Cadence.period_of_fire? ((tickAfter?_eq_some htick).2.2.2.2 job)]
        exact h tick (List.mem_cons_of_mem _ hmem) job
      obtain ⟨⟨later, p₂⟩, hlater⟩ := Option.isSome_iff_exists.1 hrest
      simp [run?, htick, hlater]

end Ticks

end Pacer

/-- The cadence fires at the times of the beats, whenever they say that the job was done. -/
inductive Cadence.Runs (job : Job) : Cadence → List Beat → Cadence → Prop
  | nil (c : Cadence) : Runs job c [] c
  | cons {c c₁ c₂ : Cadence} {b : Beat} {later : List Beat}
      (hfire : c.fire? b.now = some (b.did job, c₁)) (hlater : Runs job c₁ later c₂) :
      Runs job c (b :: later) c₂

/-- A run of ticks is a run of each of the two cadences, at the times of the ticks. -/
theorem Pacer.runs_of_run? {n : Nat} {η τ : Type} [Transport τ] {p p' : Pacer n η}
    {ticks : List (Pause n η τ × Instant)} {beats : List Beat}
    (h : p.run? ticks = some (beats, p')) :
    beats.map Beat.now = ticks.map Prod.snd ∧
      ∀ job, Cadence.Runs job (p.cadence job) beats (p'.cadence job) := by
  induction ticks generalizing p beats with
  | nil =>
      obtain ⟨rfl, rfl⟩ := Prod.mk.inj (Option.some.inj h)
      exact ⟨rfl, fun job => .nil _⟩
  | cons tick rest ih =>
      obtain ⟨b, p₁, later, htick, hrest, rfl⟩ := run?_cons_eq_some h
      obtain ⟨hnow, -, -, -, hfire⟩ := tickAfter?_eq_some htick
      obtain ⟨htimes, hruns⟩ := ih hrest
      refine ⟨?_, fun job => .cons ?_ (hruns job)⟩
      · rw [List.map_cons, List.map_cons, htimes, hnow]
      · rw [hnow]
        exact hfire job

namespace Cadence

variable {job : Job} {c c' : Cadence} {beats : List Beat}

theorem Runs.period_eq (h : Runs job c beats c') : c'.period = c.period := by
  induction h with
  | nil c => rfl
  | cons hfire hlater ih => exact ih.trans (period_of_fire? hfire)

/-- Each time the job is done, its deadline moves on by a period at least. -/
theorem Runs.le_now (h : Runs job c beats c') {k m : Nat} {b : Beat}
    (hnext : k * c.period.micros.toNat ≤ c.next.micros.toNat)
    (hb : (job.done beats)[m]? = some b) :
    (k + m) * c.period.micros.toNat ≤ b.now.micros.toNat := by
  induction h generalizing k m with
  | nil c => simp at hb
  | @cons c c₁ c₂ first later hfire hlater ih =>
      have hperiod := period_of_fire? hfire
      rcases fire?_eq_some hfire with ⟨-, hdid, rfl⟩ | ⟨hdue, hdid, -, hnext₁⟩
      · rw [Job.done_cons_of_not_did hdid] at hb
        exact ih hnext hb
      · rw [Job.done_cons_of_did hdid] at hb
        cases m with
        | zero =>
            obtain rfl : first = b := Option.some.inj hb
            exact Nat.le_trans hnext (le_of_not_lt_next hdue)
        | succ m =>
            have hanchor := (anchor_bounds hdue).1
            have hmoved : (k + 1) * c₁.period.micros.toNat ≤ c₁.next.micros.toNat := by
              rw [hnext₁, hperiod, Nat.succ_mul]
              omega
            have hlate := ih hmoved hb
            rwa [hperiod, Nat.add_right_comm, Nat.add_assoc] at hlate

/-- By any time the job has been done at most once for each period that has begun. -/
theorem Runs.countP_le {period : Duration} (h : Runs job (start period) beats c')
    (hperiod : 0 < period.micros.toNat) (time : Nat) :
    (job.done beats).countP (fun b => decide (b.now.micros.toNat ≤ time)) ≤
      time / period.micros.toNat + 1 := by
  -- whatever is done after as many times as that is done later
  have hlater : ((job.done beats).drop (time / period.micros.toNat + 1)).countP
      (fun b => decide (b.now.micros.toNat ≤ time)) = 0 := by
    refine List.countP_eq_zero.2 fun b hb => ?_
    obtain ⟨i, hi⟩ := List.mem_iff_getElem?.1 hb
    rw [List.getElem?_drop] at hi
    have hlate : time < b.now.micros.toNat :=
      calc time < period.micros.toNat * (time / period.micros.toNat + 1) :=
            Nat.lt_mul_div_succ _ hperiod
        _ ≤ (0 + (time / period.micros.toNat + 1 + i)) * period.micros.toNat := by
            rw [Nat.mul_comm]
            exact Nat.mul_le_mul_right _ (by omega)
        _ ≤ b.now.micros.toNat := h.le_now (by simp) hi
    simpa using hlate
  calc (job.done beats).countP (fun b => decide (b.now.micros.toNat ≤ time))
      = ((job.done beats).take (time / period.micros.toNat + 1)).countP
          (fun b => decide (b.now.micros.toNat ≤ time)) := by
        conv_lhs => rw [← List.take_append_drop (time / period.micros.toNat + 1) (job.done beats)]
        rw [List.countP_append, hlater, Nat.add_zero]
    _ ≤ ((job.done beats).take (time / period.micros.toNat + 1)).length := List.countP_le_length
    _ ≤ time / period.micros.toNat + 1 := List.length_take_le _ _

/-- Beats that leave no gap wider than a period find nothing to skip: the job is done once for each
period that begins between them. -/
theorem Runs.poised (h : Runs job c beats c') {t : Instant} (hpoised : c.Poised (t.micros.toNat + 1))
    (hmillis : 1000 ≤ c.period.micros.toNat)
    (hchain : (t :: beats.map Beat.now).IsChain fun a b =>
      a ≤ b ∧ b.micros.toNat ≤ a.micros.toNat + c.period.micros.toNat) :
    c'.Poised (((beats.map Beat.now).getLastD t).micros.toNat + 1) ∧
      ((beats.map Beat.now).getLastD t).micros.toNat / c.period.micros.toNat =
        t.micros.toNat / c.period.micros.toNat + (job.done beats).length := by
  induction h generalizing t with
  | nil c => exact ⟨hpoised, rfl⟩
  | @cons c c₁ c₂ b later hfire hlater ih =>
      have hperiod := period_of_fire? hfire
      rw [List.map_cons, List.isChain_cons_cons] at hchain
      obtain ⟨⟨hle, hgap⟩, hchain⟩ := hchain
      obtain ⟨hfirst, hcount⟩ :=
        hpoised.fire?_of_late hmillis (Instant.le_iff_toNat_le.1 hle) hgap hfire
      rw [← hperiod] at hmillis hchain
      obtain ⟨hlast, htotal⟩ := ih hfirst hmillis hchain
      rw [List.map_cons, List.getLastD_cons]
      refine ⟨hlast, ?_⟩
      rw [hperiod, hcount] at htotal
      rw [htotal]
      cases hdid : b.did job with
      | false =>
          rw [Job.done_cons_of_not_did hdid]
          rfl
      | true =>
          rw [Job.done_cons_of_did hdid, List.length_cons]
          rw [Bool.toNat_true]
          omega

end Cadence

/-- Times that begin with the start of time, do not go back, and leave no gap wider than `gap`. -/
structure Unbroken (gap : Duration) (times : List Instant) : Prop where
  zero_first : times.head? = some Instant.zero
  chain : times.IsChain fun a b => a ≤ b ∧ b.micros.toNat ≤ a.micros.toNat + gap.micros.toNat

/-- From the start of time on, beats that leave no gap wider than a period do the job once for each
period that has begun, and the next step is due with the next period. -/
theorem Cadence.Runs.length_done {job : Job} {period : Duration} {beats : List Beat} {c' : Cadence}
    (h : Runs job (start period) beats c') (hmillis : 1000 ≤ period.micros.toNat)
    (hunbroken : Unbroken period (beats.map Beat.now)) {last : Instant}
    (hlast : (beats.map Beat.now).getLast? = some last) :
    (job.done beats).length = last.micros.toNat / period.micros.toNat + 1 ∧
      c'.next.micros.toNat =
        (last.micros.toNat / period.micros.toNat + 1) * period.micros.toNat := by
  cases h with
  | nil => simp at hlast
  | @cons _ c₁ _ b later hfire hlater =>
      obtain ⟨hzero, hchain⟩ := hunbroken
      have hnow : b.now = Instant.zero := Option.some.inj hzero
      have hperiod : c₁.period = period := period_of_fire? hfire
      subst hperiod
      have hstart : (start c₁.period).Poised b.now.micros.toNat := by
        rw [hnow]
        exact poised_start (by omega)
      obtain ⟨hfirst, hdid⟩ := hstart.fire? hfire
      have hdid : b.did job = true := hdid.2 (by simp [hnow, Instant.zero])
      rw [List.map_cons] at hchain
      rw [List.map_cons, List.getLast?_cons, ← List.getLastD_eq_getLast?, Option.some.injEq] at hlast
      obtain ⟨hpoised, hcount⟩ := hlater.poised hfirst hmillis hchain
      rw [hlast] at hpoised hcount
      constructor
      · rw [Job.done_cons_of_did hdid, List.length_cons, hcount, hnow]
        simp [Instant.zero]
      · rw [hpoised.eq_mul, hlater.period_eq]

namespace Pacer

variable {n : Nat} {η τ : Type}

theorem cadence_start (node : Node n η) (job : Job) :
    (start node).cadence job = Cadence.start (node.options.every job) := by
  cases job with
  | process => rfl
  | poll => rfl

/-- A tick does the jobs that it reports. However a pacer is ticked and whatever it skips, `m` periods
have passed when a job has been done `m` times and is done again, so that it is done at most once for
each period that has begun. Ticks that leave no gap wider than a period do it just as often, and keep
its deadline at the first multiple of the period ahead. -/
theorem jobs_keep_pace [Transport τ] (node : Node n η)
    (hevery : ∀ job, 0 < (node.options.every job).micros.toNat)
    (ticks : List (Pause n η τ × Instant)) :
    (∀ (p : Pacer n η) (pause : Pause n η τ) now b p', p.tickAfter? pause now = some (b, p') →
      p'.node = (pause.change p.node).worked b pause.transport) ∧
    ((∀ tick ∈ ticks, ∀ job,
        tick.2.micros.toNat + (node.options.every job).micros.toNat < UInt64.size) →
      ((start node).run? ticks).isSome) ∧
    ∀ beats p, (start node).run? ticks = some (beats, p) →
      beats.map Beat.now = ticks.map Prod.snd ∧ ∀ job,
        (∀ m b, (job.done beats)[m]? = some b →
          m * (node.options.every job).micros.toNat ≤ b.now.micros.toNat) ∧
        (∀ time, (job.done beats).countP (fun b => decide (b.now.micros.toNat ≤ time)) ≤
          time / (node.options.every job).micros.toNat + 1) ∧
        (1000 ≤ (node.options.every job).micros.toNat →
          Unbroken (node.options.every job) (ticks.map Prod.snd) →
          ∀ last, (ticks.map Prod.snd).getLast? = some last →
            (job.done beats).length =
              last.micros.toNat / (node.options.every job).micros.toNat + 1 ∧
            (p.cadence job).next.micros.toNat =
              (last.micros.toNat / (node.options.every job).micros.toNat + 1) *
                (node.options.every job).micros.toNat) := by
  refine ⟨fun p pause now b p' htick => (tickAfter?_eq_some htick).2.2.2.1, ?_, ?_⟩
  · intro hroom
    refine isSome_run? (start node) ticks fun tick hmem job => ?_
    rw [cadence_start]
    exact hroom tick hmem job
  · intro beats p hrun
    obtain ⟨htimes, hruns⟩ := runs_of_run? hrun
    refine ⟨htimes, fun job => ?_⟩
    have hjob := hruns job
    rw [cadence_start] at hjob
    refine ⟨fun m b hb => ?_, hjob.countP_le (hevery job), fun hmillis hunbroken last hlast => ?_⟩
    · have hle := hjob.le_now (k := 0) (by simp) hb
      rwa [Nat.zero_add] at hle
    · rw [← htimes] at hunbroken hlast
      exact hjob.length_done hmillis hunbroken hlast

/-- Five ticks at irregular times, never more than a step of the lamps apart. -/
theorem jobs_keep_pace_standard :
    let ticks : List (Pause 1 SplitMix Steady × Instant) :=
      [0, 20000, 20001, 40001, 59999].map fun micros => (⟨id, {}⟩, ⟨micros⟩)
    (∀ job, 0 < (Options.standard.every job).micros.toNat) ∧
      Unbroken (Options.standard.every .process) (ticks.map Prod.snd) ∧
      ∃ beats p,
        (start (Node.powerUp 1 Settings.blank Options.standard ⟨0⟩)).run? ticks = some (beats, p) ∧
        (Job.process.done beats).length = 3 ∧
        (p.cadence .process).next.micros.toNat = 60000 ∧
        ∀ m b, (Job.poll.done beats)[m]? = some b → m * 100000 ≤ b.now.micros.toNat := by
  intro ticks
  have hevery : ∀ job, 0 < (Options.standard.every job).micros.toNat := by
    intro job
    cases job <;> decide
  have hunbroken : Unbroken (Options.standard.every .process) (ticks.map Prod.snd) :=
    ⟨rfl, by decide⟩
  obtain ⟨-, hresult, hpace⟩ := jobs_keep_pace
    (Node.powerUp 1 Settings.blank Options.standard (⟨0⟩ : SplitMix)) hevery ticks
  have hroom : ∀ job, ∀ tick ∈ ticks,
      tick.2.micros.toNat + (Options.standard.every job).micros.toNat < UInt64.size := by
    intro job
    cases job <;> decide
  obtain ⟨⟨beats, p⟩, hrun⟩ :=
    Option.isSome_iff_exists.1 (hresult fun tick hmem job => hroom job tick hmem)
  obtain ⟨-, hjobs⟩ := hpace beats p hrun
  obtain ⟨hlength, hnext⟩ := (hjobs .process).2.2 (by decide) hunbroken ⟨59999⟩ rfl
  exact ⟨hevery, hunbroken, beats, p, hrun, hlength, hnext, (hjobs .poll).1⟩

end Pacer

end Luminaire
