import Luminaire.Proofs.Broker.Reliable
import Luminaire.Proofs.Broker.Subscribing

/-!
# Every group has one turn

A `History` is what has become of a plan: when it was made, and who has polled it since. A group is
`waiting` in a history until the first poll at which its time has come, whatever the order of the
times at which the polls are made, and then it has its turn. The plan of a history lists exactly
the waiting groups (`Kept`), so all that can be said of turns is said by `waiting`.

A new plan begins a new history. What holds of the history after each run thus holds of every
stretch between one `schedule` and the next.
-/

namespace Luminaire

namespace Subscription

/-- A poll of a plan, with all contacts that came of it. -/
structure Visit where
  now : Instant
  contacts : List Contact
  /-- The number of accepted subscriptions that was returned. -/
  accepted : Nat

namespace Visit

def requests (v : Visit) : List Request := v.contacts.filterMap Contact.request?

end Visit

namespace Group

/-- The time of the group has come at `now`, if it is counted from `since`. -/
def isDue (g : Group) (since now : Instant) : Bool :=
  since.micros.toNat + g.delay.micros.toNat ≤ now.micros.toNat

end Group

/-- A plan, the time from which it counts, and the polls since it was made, the oldest first. -/
structure History where
  plan : Plan
  /-- There is none before the first plan was made. -/
  since : Option Instant
  visits : List Visit

/-- What is done with a plan. Each poll brings the transport it finds. -/
inductive Step (τ : Type) where
  | schedule (now : Instant)
  | poll (now : Instant) (t : τ)

/-- The groups whose time had come at none of the visits. -/
def waiting (since : Option Instant) (visits : List Visit) : List Group :=
  match since with
  | none => []
  | some since => groups.filter fun g => visits.all fun v => !g.isDue since v.now

/-- The groups whose time has come at `now`, and at none of the earlier visits. -/
def due (since : Option Instant) (visits : List Visit) (now : Instant) : List Group :=
  (waiting since visits).filter fun g => since.any (g.isDue · now)

theorem waiting_append (since : Option Instant) (visits : List Visit) (v : Visit) :
    waiting since (visits ++ [v]) =
      (waiting since visits).filter fun g => since.any (!g.isDue · v.now) := by
  cases since with
  | none => rfl
  | some since =>
      rw [waiting, waiting, List.filter_filter]
      refine List.filter_congr fun g _ => ?_
      rw [List.all_append, List.all_cons, List.all_nil, Bool.and_true, Bool.and_comm]
      rfl

section Schedule

/-- A plan has an appointment for each group, at the time at which the group is due. -/
theorem appointments_of_mapM {now : Instant} {gs : List Group} {appointments : List Appointment}
    (h : gs.mapM (Group.appointment? · now) = some appointments) :
    appointments.map Appointment.group = gs ∧
      ∀ a ∈ appointments,
        a.time.micros.toNat = now.micros.toNat + a.group.delay.micros.toNat := by
  induction gs generalizing appointments with
  | nil =>
      obtain rfl : [] = appointments := by simpa using h
      exact ⟨rfl, by simp⟩
  | cons g rest ih =>
      rw [List.mapM_cons] at h
      obtain ⟨a, ha, h⟩ := Option.bind_eq_some_iff.1 h
      obtain ⟨later, hlater, h⟩ := Option.bind_eq_some_iff.1 h
      obtain rfl := Option.some.inj h
      obtain ⟨time, htime, rfl⟩ := Option.map_eq_some_iff.1 ha
      obtain ⟨hgroups, htimes⟩ := ih hlater
      refine ⟨by rw [List.map_cons, hgroups], List.forall_mem_cons.2 ⟨?_, htimes⟩⟩
      exact (Instant.after?_eq_some_iff now g.delay time).1 htime

theorem isSome_mapM_appointment? (now : Instant) (gs : List Group) :
    (gs.mapM (Group.appointment? · now)).isSome ↔
      ∀ g ∈ gs, now.micros.toNat + g.delay.micros.toNat < UInt64.size := by
  induction gs with
  | nil => simp
  | cons g rest ih =>
      have hfirst : (g.appointment? now).isSome ↔
          now.micros.toNat + g.delay.micros.toNat < UInt64.size := by
        rw [Group.appointment?, Option.isSome_map, Instant.after?]
        split <;> simp_all
      rw [List.mapM_cons, List.forall_mem_cons, ← ih, ← hfirst]
      cases g.appointment? now with
      | none => simp
      | some a => cases rest.mapM (Group.appointment? · now) <;> simp

/-- The last groups come twenty seconds after the connection. -/
theorem Plan.isSome_schedule? (now : Instant) :
    (schedule? now).isSome ↔ now.micros.toNat + 20000000 < UInt64.size := by
  rw [schedule?, Option.isSome_map, isSome_mapM_appointment?]
  have hdelays : ∀ g ∈ groups, g.delay.micros.toNat ≤ 20000000 := by decide
  constructor
  · intro h
    exact h ⟨Duration.ofSeconds 20, [.kind .random]⟩ (by decide)
  · intro h g hg
    have hdelay := hdelays g hg
    omega

end Schedule

/-- The visit was a turn for each of the groups, and for nothing else: for one after the other, what
is wanted for it was requested. It returned the number of requests that were accepted. -/
def Visit.Serves (wanted : Group → List Request) (gs : List Group) (v : Visit) : Prop :=
  ∃ stages : List Stage,
    v.contacts = stages.flatMap Stage.contacts ∧
    List.Forall₂ (fun g s => s.Makes (wanted g)) gs stages ∧
    v.accepted = (stages.flatMap Stage.calls).countP Call.accepted

/-- A group has all of its requests made in its turn, or none. -/
theorem Visit.Serves.sublist {wanted : Group → List Request} {gs : List Group} {v : Visit}
    (h : v.Serves wanted gs) : v.requests.Sublist (gs.flatMap wanted) := by
  obtain ⟨stages, hcontacts, hturns, _⟩ := h
  rw [requests, hcontacts]
  exact Stage.sublist_requests hturns

namespace History

/-- Before the first plan. -/
def start : History := ⟨Plan.empty, none, []⟩

section Run

variable {τ : Type} [Transport τ]

/-- The history after a poll. -/
def poll (root : String) (h : History) (now : Instant) (t : τ) : History :=
  let round := h.plan.poll now root (⟨t, []⟩ : Watched τ)
  ⟨round.plan, h.since, h.visits ++ [⟨now, round.transport.contacts, round.accepted⟩]⟩

/-- The history after a step, unless it makes a plan that reaches past the end of time. -/
def step? (root : String) (h : History) : Step τ → Option History
  | .schedule now => (Plan.schedule? now).map fun plan => ⟨plan, some now, []⟩
  | .poll now t => some (h.poll root now t)

/-- The history after some steps, the first one first. -/
def run? (root : String) (h : History) : List (Step τ) → Option History
  | [] => some h
  | e :: rest => (h.step? root e).bind fun h => h.run? root rest

end Run

/-- The plan lists the groups that are waiting, each with the time at which it is due. -/
structure Kept (h : History) : Prop where
  groups : h.plan.appointments.map Appointment.group = waiting h.since h.visits
  times : ∀ a ∈ h.plan.appointments, ∀ since ∈ h.since,
    a.time.micros.toNat = since.micros.toNat + a.group.delay.micros.toNat

theorem kept_start : start.Kept := ⟨rfl, fun _ ha => nomatch ha⟩

theorem kept_schedule {now : Instant} {plan : Plan} (h : Plan.schedule? now = some plan) :
    Kept ⟨plan, some now, []⟩ := by
  obtain ⟨appointments, happointments, rfl⟩ := Option.map_eq_some_iff.1 h
  obtain ⟨hgroups, htimes⟩ := appointments_of_mapM happointments
  refine ⟨?_, fun a ha since hsince => ?_⟩
  · rw [hgroups, waiting]
    exact (List.filter_eq_self.2 fun g _ => rfl).symm
  · obtain rfl := Option.some.inj hsince
    exact htimes a ha

/-- What a poll does with an appointment depends on no more than whether its group is due. -/
theorem Kept.map_group_filter {h : History} (hh : h.Kept) (now : Instant) (keep : Bool → Bool) :
    (h.plan.appointments.filter fun a => keep (decide (a.time ≤ now))).map Appointment.group =
      (waiting h.since h.visits).filter fun g =>
        h.since.any fun since => keep (g.isDue since now) := by
  have hgroups := hh.groups
  cases hsince : h.since with
  | none =>
      rw [hsince, waiting, List.map_eq_nil_iff] at hgroups
      rw [hgroups]
      rfl
  | some since =>
      rw [hsince] at hgroups
      rw [← hgroups, List.filter_map]
      refine congrArg _ (List.filter_congr fun a ha => congrArg keep ?_)
      rw [Group.isDue, ← hh.times a ha since hsince]
      exact decide_eq_decide.2 Instant.le_iff_toNat_le

variable {τ : Type} [Transport τ]

theorem Kept.poll {h : History} (hh : h.Kept) (root : String) (now : Instant) (t : τ) :
    (h.poll root now t).Kept := by
  have hplan : (h.poll root now t).plan.appointments =
      h.plan.appointments.filter fun a => !decide (a.time ≤ now) := by
    refine (meet_fst now root h.plan.appointments (⟨t, []⟩ : Watched τ)).trans ?_
    simp only [decide_not]
  refine ⟨?_, fun a ha => ?_⟩
  · rw [hplan, hh.map_group_filter now not]
    exact (waiting_append h.since h.visits ⟨now, _, _⟩).symm
  · rw [hplan] at ha
    exact hh.times a (List.mem_of_mem_filter ha)

/-- A poll serves the groups that become due by it. -/
theorem Kept.exists_visit {h : History} (hh : h.Kept) (root : String) (now : Instant) (t : τ) :
    ∃ v : Visit, (h.poll root now t).visits = h.visits ++ [v] ∧
      v.Serves (fun g => requests root g.subjects) (due h.since h.visits v.now) := by
  obtain ⟨stages, hlead, hturns, haccepted⟩ :=
    leads_meet now root h.plan.appointments (⟨t, []⟩ : Watched τ)
  have hmet : (h.plan.appointments.filter (·.time ≤ now)).map Appointment.group =
      due h.since h.visits now := hh.map_group_filter now id
  refine ⟨_, rfl, stages, hlead.contacts_eq, ?_, haccepted⟩
  show List.Forall₂ _ (due h.since h.visits now) stages
  rw [← hmet, List.forall₂_map_left_iff]
  exact hturns

/-- Each visit since the plan was made served the groups that became due by it. -/
def Served (root : String) (h : History) : Prop :=
  ∀ before v after, h.visits = before ++ v :: after →
    v.Serves (fun g => requests root g.subjects) (due h.since before v.now)

/-- No request made since the plan was made is made twice, nor is one of those still to be made. -/
def Unrepeated (root : String) (h : History) : Prop :=
  (h.visits.flatMap Visit.requests ++
    (waiting h.since h.visits).flatMap fun g => requests root g.subjects).Nodup

theorem Served.poll {root : String} {h : History} (hh : h.Served root) (hkept : h.Kept)
    (now : Instant) (t : τ) : (h.poll root now t).Served root := by
  obtain ⟨v, hlast, hserves⟩ := hkept.exists_visit root now t
  intro before v' after hvisits
  rw [hlast] at hvisits
  rcases List.eq_nil_or_concat after with rfl | ⟨after', last, rfl⟩
  · obtain ⟨rfl, hv⟩ := List.append_inj' hvisits rfl
    obtain rfl := List.singleton_inj.1 hv
    exact hserves
  · rw [List.concat_eq_append, ← List.cons_append, ← List.append_assoc] at hvisits
    obtain ⟨hbefore, _⟩ := List.append_inj' hvisits rfl
    exact hh before v' after' hbefore

theorem Unrepeated.poll {root : String} {h : History} (hh : h.Unrepeated root) (hkept : h.Kept)
    (now : Instant) (t : τ) : (h.poll root now t).Unrepeated root := by
  obtain ⟨v, hlast, hserves⟩ := hkept.exists_visit root now t
  have hsublist := hserves.sublist
  have hsince' : (h.poll root now t).since = h.since := rfl
  rw [Unrepeated] at hh
  rw [Unrepeated, hlast, hsince', waiting_append, List.flatMap_append, List.flatMap_singleton,
    List.append_assoc]
  cases hsince : h.since with
  | none =>
      rw [hsince] at hh hsublist
      rw [List.sublist_nil.1 hsublist]
      exact hh
  | some since =>
      rw [hsince] at hh hsublist
      -- the waiting groups are those that become due and those that go on waiting
      have hsplit := (List.filter_append_perm (·.isDue since v.now)
        (waiting (some since) h.visits)).flatMap_right fun g => requests root g.subjects
      rw [List.flatMap_append] at hsplit
      have hnodup := (hsplit.append_left (h.visits.flatMap Visit.requests)).nodup_iff.2 hh
      exact hnodup.sublist ((hsublist.append_right _).append_left _)

/-- What holds of every history. -/
structure Orderly (root : String) (h : History) : Prop where
  kept : h.Kept
  served : h.Served root
  unrepeated : h.Unrepeated root

theorem nodup_requests_groups (root : String) :
    (groups.flatMap fun g => requests root g.subjects).Nodup := by
  have hsubjects : (groups.flatMap Group.subjects).Nodup := by decide
  have hrequests : (groups.flatMap fun g => requests root g.subjects) =
      requests root (groups.flatMap Group.subjects) := List.filterMap_flatMap.symm
  rw [hrequests]
  exact nodup_requests root hsubjects

theorem orderly_start (root : String) : start.Orderly root := by
  refine ⟨kept_start, fun before v after h => ?_, List.nodup_nil⟩
  simp [start] at h

theorem orderly_schedule (root : String) {now : Instant} {plan : Plan}
    (h : Plan.schedule? now = some plan) : Orderly root ⟨plan, some now, []⟩ := by
  have hkept := kept_schedule h
  refine ⟨hkept, fun before v after hvisits => ?_, ?_⟩
  · simp at hvisits
  · exact nodup_requests_groups root

theorem Orderly.step? {root : String} {h h' : History} {e : Step τ} (hh : h.Orderly root)
    (hstep : h.step? root e = some h') : h'.Orderly root := by
  cases e with
  | schedule now =>
      rw [History.step?, Option.map_eq_some_iff] at hstep
      obtain ⟨plan, hplan, rfl⟩ := hstep
      exact orderly_schedule root hplan
  | poll now t =>
      obtain rfl := Option.some.inj hstep
      exact ⟨hh.kept.poll root now t, hh.served.poll hh.kept now t,
        hh.unrepeated.poll hh.kept now t⟩

theorem Orderly.run? {root : String} {h h' : History} {steps : List (Step τ)} (hh : h.Orderly root)
    (hrun : h.run? root steps = some h') : h'.Orderly root := by
  induction steps generalizing h with
  | nil =>
      obtain rfl := Option.some.inj hrun
      exact hh
  | cons e rest ih =>
      obtain ⟨h₁, hfirst, hrest⟩ := Option.bind_eq_some_iff.1 hrun
      exact ih (hh.step? hfirst) hrest

/-- Only a plan that would reach past the end of time ends a run. -/
theorem isSome_run? (root : String) (h : History) (steps : List (Step τ)) :
    (h.run? root steps).isSome ↔
      ∀ now, Step.schedule now ∈ steps → now.micros.toNat + 20000000 < UInt64.size := by
  induction steps generalizing h with
  | nil => simp [History.run?]
  | cons e rest ih =>
      rw [History.run?]
      cases e with
      | schedule now =>
          have hplan := Plan.isSome_schedule? now
          simp only [History.step?, List.mem_cons, Step.schedule.injEq]
          cases hschedule : Plan.schedule? now with
          | none =>
              rw [hschedule] at hplan
              simp only [Option.map_none, Option.bind_none, Option.isSome_none]
              exact iff_of_false (by simp) fun h => by simpa using hplan.2 (h now (Or.inl rfl))
          | some plan =>
              rw [hschedule] at hplan
              rw [Option.map_some, Option.bind_some, ih]
              refine ⟨fun h now' hnow => ?_, fun h now' hnow => h now' (Or.inr hnow)⟩
              rcases hnow with rfl | hnow
              · exact hplan.1 rfl
              · exact h now' hnow
      | poll now t =>
          simp only [History.step?, Option.bind_some, ih, List.mem_cons, reduceCtorEq, false_or]

theorem isPending_iff {h : History} (hh : h.Kept) :
    h.plan.isPending = true ↔ waiting h.since h.visits ≠ [] := by
  rw [← hh.groups, Plan.isPending]
  cases h.plan.appointments with
  | nil => simp
  | cons a rest => simp

/-- Each poll is a turn for the groups that become due by it, and for nothing else. There every
pattern of a group is requested, one after the other, unless there is no connection when the turn
begins. No pattern is requested twice, and the plan is pending as long as a group is waiting. -/
theorem groups_take_turns (root : String) (filter : Subject → Topic)
    (hfilter : ∀ s : Subject, s.filter root = .ok (filter s)) (steps : List (Step τ)) :
    ((start.run? root steps).isSome ↔
      ∀ now, Step.schedule now ∈ steps → now.micros.toNat + 20000000 < UInt64.size) ∧
    ∀ h ∈ start.run? root steps,
      (∀ before v after, h.visits = before ++ v :: after →
        v.Serves (fun g => g.subjects.map fun s => .subscribe (filter s))
          (due h.since before v.now)) ∧
      (h.visits.flatMap Visit.requests).Nodup ∧
      (h.plan.isPending = true ↔ waiting h.since h.visits ≠ []) := by
  refine ⟨isSome_run? root start steps, fun h hrun => ?_⟩
  have hh := (orderly_start root).run? hrun
  refine ⟨fun before v after hvisits => ?_, hh.unrepeated.of_append_left, isPending_iff hh.kept⟩
  have hserves := hh.served before v after hvisits
  have hwanted : (fun g : Group => requests root g.subjects) =
      fun g => g.subjects.map fun s => .subscribe (filter s) := by
    funext g
    exact requests_of_fits hfilter g.subjects
  rw [hwanted] at hserves
  exact hserves

/-- Two groups are due by the first poll, and the connection breaks in the middle of the first one.
The second poll comes from before all deadlines. -/
theorem groups_take_turns_hall :
    ∃ (filter : Subject → Topic) (h : History), (∀ s : Subject, s.filter "hall" = .ok (filter s)) ∧
      start.run? "hall" [.schedule Instant.zero, .poll ⟨12000000⟩ (⟨true⟩ : Fragile),
        .poll ⟨3000000⟩ ⟨true⟩] = some h ∧
      h.visits.map (·.requests.length) = [2, 0] ∧
      h.visits.map Visit.accepted = [1, 0] ∧
      (h.visits.flatMap Visit.requests).Nodup ∧ h.plan.isPending = true := by
  have hfilter : ∀ s : Subject,
      s.filter "hall" = .ok ((s.filter "hall").toOption.getD ⟨"", by decide⟩) := by
    intro s
    cases s with
    | kind k => cases k <;> rfl
    | strobe => rfl
  refine ⟨_, _, hfilter, rfl, rfl, rfl, ?_⟩
  obtain ⟨_, hnodup, hpending⟩ := (groups_take_turns "hall" _ hfilter
    [.schedule Instant.zero, .poll ⟨12000000⟩ (⟨true⟩ : Fragile), .poll ⟨3000000⟩ ⟨true⟩]).2 _ rfl
  exact ⟨hnodup, hpending.2 (by decide)⟩

end History

end Subscription

end Luminaire
