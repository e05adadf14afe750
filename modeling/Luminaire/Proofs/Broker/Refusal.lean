import Luminaire.Proofs.Broker.Staggered
import Mathlib.Data.List.Count
import Mathlib.Data.List.Flatten

/-!
# Refused subscriptions

A group leaves the plan when its time has come. Without a connection it is dropped on purpose: the
next connection makes a plan of its own. But on a connection that stands, a transport may refuse a
request for want of room, and the plan does not wait for the answer. What is refused is refused for
good: the pattern has been requested once (`answers`), its group is gone, and no group that is left
asks for it (`Plan.IsPart.answers_later`).
-/

namespace Luminaire

namespace Contact

/-- The call that was made. -/
def call? : Contact → Option Call
  | look _ => none
  | call c => some c

theorem request?_eq_map_call? : request? = fun c => c.call?.map Call.request := by
  funext c
  cases c <;> rfl

end Contact

namespace Subscription

/-- The answers to the requests for a pattern: whether each was accepted, the first one first. -/
def answers (filter : Topic) (contacts : List Contact) : List Bool :=
  ((contacts.filterMap Contact.call?).filter (·.request = .subscribe filter)).map Call.accepted

/-- There is one answer to each request. -/
theorem length_answers (filter : Topic) (contacts : List Contact) :
    (answers filter contacts).length =
      (contacts.filterMap Contact.request?).count (.subscribe filter) := by
  have hrequests : contacts.filterMap Contact.request? =
      (contacts.filterMap Contact.call?).map Call.request := by
    rw [List.map_filterMap, Contact.request?_eq_map_call?]
  rw [answers, List.length_map, hrequests, List.count_eq_countP, List.countP_map,
    List.countP_eq_length_filter]
  rfl

namespace Plan

variable {τ : Type} [Transport τ]

/-- Each group has at most one appointment. -/
def IsPart (p : Plan) : Prop := (p.appointments.map Appointment.group).Sublist groups

theorem isPart_schedule {now : Instant} {plan : Plan} (h : schedule? now = some plan) :
    plan.IsPart := by
  obtain ⟨appointments, happointments, rfl⟩ := Option.map_eq_some_iff.1 h
  rw [IsPart, (appointments_of_mapM happointments).1]

theorem IsPart.nodup_subjects {p : Plan} (h : p.IsPart) :
    (p.appointments.flatMap (·.group.subjects)).Nodup := by
  have hsubjects : (groups.flatMap Group.subjects).Nodup := by decide
  have hsublist := h.flatMap Group.subjects
  rw [List.flatMap_map] at hsublist
  exact hsubjects.sublist hsublist

/-- What is left of the plan asks for nothing that was due. -/
theorem IsPart.not_mem_later {p : Plan} (h : p.IsPart) {now : Instant} {a a' : Appointment}
    (ha : a ∈ p.appointments) (ha' : a' ∈ p.appointments) (hdue : a.time ≤ now)
    (hlater : ¬ a'.time ≤ now) {s : Subject} (hs : s ∈ a.group.subjects) :
    s ∉ a'.group.subjects := by
  intro hs'
  -- the two parts of the plan have no subject in common
  have hsplit := (List.filter_append_perm (fun a => decide (a.time ≤ now))
    p.appointments).flatMap_right (·.group.subjects)
  rw [List.flatMap_append] at hsplit
  have hdisjoint := (List.nodup_append'.1 (hsplit.nodup_iff.2 h.nodup_subjects)).2.2
  refine hdisjoint (List.mem_flatMap.2 ⟨a, ?_, hs⟩) (List.mem_flatMap.2 ⟨a', ?_, hs'⟩)
  · exact List.mem_filter.2 ⟨ha, by simpa using hdue⟩
  · exact List.mem_filter.2 ⟨ha', by simpa using hlater⟩

/-- The subjects of the groups whose time has come. -/
def dueSubjects (p : Plan) (now : Instant) : List Subject :=
  (p.appointments.filter (·.time ≤ now)).flatMap (·.group.subjects)

theorem IsPart.nodup_dueSubjects {p : Plan} (h : p.IsPart) (now : Instant) :
    (p.dueSubjects now).Nodup :=
  h.nodup_subjects.sublist (List.filter_sublist.flatMap _)

theorem requests_dueSubjects (root : String) (p : Plan) (now : Instant) :
    (p.appointments.filter (·.time ≤ now)).flatMap (fun a => requests root a.group.subjects) =
      requests root (p.dueSubjects now) :=
  List.filterMap_flatMap.symm

theorem IsPart.mem_dueSubjects_iff {p : Plan} (h : p.IsPart) {now : Instant} {a : Appointment}
    (ha : a ∈ p.appointments) {s : Subject} (hs : s ∈ a.group.subjects) :
    s ∈ p.dueSubjects now ↔ a.time ≤ now := by
  constructor
  · intro hdue
    obtain ⟨a', ha', hs'⟩ := List.mem_flatMap.1 hdue
    obtain ⟨ha', hdue'⟩ := List.mem_filter.1 ha'
    by_contra hlater
    exact h.not_mem_later ha' ha (of_decide_eq_true hdue') hlater hs' hs
  · intro hdue
    exact List.mem_flatMap.2 ⟨a, List.mem_filter.2 ⟨ha, decide_eq_true hdue⟩, hs⟩

/-- The contacts of a poll are those of its stages, one for each appointment that is due. -/
theorem exists_stages (root : String) (p : Plan) (now : Instant) (t : τ) :
    ∃ stages : List Stage,
      Stage.Lead stages ⟨t, []⟩ (p.poll now root (⟨t, []⟩ : Watched τ)).transport ∧
      (p.poll now root (⟨t, []⟩ : Watched τ)).transport.contacts =
        stages.flatMap Stage.contacts ∧
      List.Forall₂ (fun a s => s.Makes (requests root a.group.subjects))
        (p.appointments.filter (·.time ≤ now)) stages := by
  obtain ⟨stages, hlead, hturns, _⟩ := leads_meet now root p.appointments (⟨t, []⟩ : Watched τ)
  exact ⟨stages, hlead, hlead.contacts_eq, hturns⟩

/-- If the connection stands at every look, a poll requests the patterns of all that is due. -/
theorem requests_poll {root : String} {p : Plan} {now : Instant} {t : τ}
    (hlooks : ∀ b, Contact.look b ∈ (p.poll now root (⟨t, []⟩ : Watched τ)).transport.contacts →
      b = true) :
    (p.poll now root (⟨t, []⟩ : Watched τ)).transport.contacts.filterMap Contact.request? =
      requests root (p.dueSubjects now) := by
  obtain ⟨stages, _, hcontacts, hturns⟩ := p.exists_stages root now t
  rw [hcontacts] at hlooks ⊢
  rw [← requests_dueSubjects]
  refine Stage.requests_of_connected hturns fun s hs => ?_
  exact hlooks s.connected (List.mem_flatMap.2 ⟨s, hs, List.mem_cons_self⟩)

/-- Whatever a look shows, a poll requests nothing else. -/
theorem sublist_requests_poll (root : String) (p : Plan) (now : Instant) (t : τ) :
    ((p.poll now root (⟨t, []⟩ : Watched τ)).transport.contacts.filterMap Contact.request?).Sublist
      (requests root (p.dueSubjects now)) := by
  obtain ⟨stages, _, hcontacts, hturns⟩ := p.exists_stages root now t
  rw [hcontacts, ← requests_dueSubjects]
  exact Stage.sublist_requests hturns

/-- The plan after some polls, the first one first. -/
def after (root : String) (p : Plan) (polls : List (Instant × τ)) : Plan :=
  polls.foldl (fun p (now, t) => (p.poll now root t).plan) p

/-- A poll takes appointments from the plan and adds none. -/
theorem mem_appointments_poll_iff {root : String} {p : Plan} {now : Instant} {t : τ}
    {a : Appointment} :
    a ∈ (p.poll now root t).plan.appointments ↔ a ∈ p.appointments ∧ ¬ a.time ≤ now := by
  show a ∈ (meet now root p.appointments t).1 ↔ _
  rw [meet_fst, List.mem_filter, decide_eq_true_iff]

theorem mem_appointments_of_after {root : String} {p : Plan} {polls : List (Instant × τ)}
    {a : Appointment} (h : a ∈ (p.after root polls).appointments) : a ∈ p.appointments := by
  induction polls generalizing p with
  | nil => exact h
  | cons poll rest ih => exact (mem_appointments_poll_iff.1 (ih h)).1

/-- On a transport that is always connected every look shows the connection. -/
theorem looks_poll (hconnected : ∀ t : τ, (Transport.isConnected t).1 = true) (root : String)
    (p : Plan) (now : Instant) (t : τ) :
    ∀ b, Contact.look b ∈ (p.poll now root (⟨t, []⟩ : Watched τ)).transport.contacts →
      b = true := by
  obtain ⟨stages, hlead, hcontacts, _⟩ := p.exists_stages root now t
  intro b hb
  rw [hcontacts] at hb
  obtain ⟨s, hs, hlook⟩ := List.mem_flatMap.1 hb
  obtain rfl : b = s.connected := by simpa [Stage.contacts] using hlook
  exact hlead.connected hconnected s hs

section Answers

variable {root : String} {filter : Subject → Topic}

theorem count_requests (hfilter : ∀ s : Subject, s.filter root = .ok (filter s))
    (subjects : List Subject) (s : Subject) :
    (requests root subjects).count (.subscribe (filter s)) = subjects.count s := by
  have hinj : Function.Injective fun s => Request.subscribe (filter s) := by
    intro s s' h
    refine Subject.filter_inj (hfilter s) ?_
    rw [hfilter s', Request.subscribe.inj h]
  rw [requests_of_fits hfilter]
  exact List.count_map_of_injective subjects _ hinj s

/-- Nothing is answered about a subject that is not due. -/
theorem answers_of_not_mem (hfilter : ∀ s : Subject, s.filter root = .ok (filter s)) {p : Plan}
    {now : Instant} {s : Subject} (hs : s ∉ p.dueSubjects now) (t : τ) :
    answers (filter s) (p.poll now root (⟨t, []⟩ : Watched τ)).transport.contacts = [] := by
  apply List.eq_nil_of_length_eq_zero
  have hcount := (p.sublist_requests_poll root now t).count_le (.subscribe (filter s))
  rw [count_requests hfilter, List.count_eq_zero_of_not_mem hs] at hcount
  rw [length_answers]
  exact Nat.le_zero.1 hcount

/-- On a connection that stands there is one answer about each subject that is due. -/
theorem IsPart.exists_answer (hfilter : ∀ s : Subject, s.filter root = .ok (filter s)) {p : Plan}
    (hp : p.IsPart) {now : Instant} {t : τ}
    (hlooks : ∀ b, Contact.look b ∈ (p.poll now root (⟨t, []⟩ : Watched τ)).transport.contacts →
      b = true)
    {s : Subject} (hs : s ∈ p.dueSubjects now) :
    ∃ accepted, answers (filter s) (p.poll now root (⟨t, []⟩ : Watched τ)).transport.contacts =
      [accepted] := by
  apply List.length_eq_one_iff.1
  rw [length_answers, requests_poll hlooks, count_requests hfilter]
  exact List.count_eq_one_of_mem (hp.nodup_dueSubjects now) hs

/-- What was due is in none of the later polls, whatever its answer was. -/
theorem IsPart.answers_later (hfilter : ∀ s : Subject, s.filter root = .ok (filter s)) {p : Plan}
    (hp : p.IsPart) {now : Instant} {s : Subject} (hs : s ∈ p.dueSubjects now)
    {τ' : Type} [Transport τ'] (t : τ') (polls : List (Instant × τ)) (now' : Instant) (t' : τ) :
    answers (filter s) (((p.poll now root t).plan.after root polls).poll now' root
      (⟨t', []⟩ : Watched τ)).transport.contacts = [] := by
  apply answers_of_not_mem hfilter
  intro hs'
  obtain ⟨a, ha, hsa⟩ := List.mem_flatMap.1 hs
  obtain ⟨a', ha', hsa'⟩ := List.mem_flatMap.1 hs'
  obtain ⟨ha, hdue⟩ := List.mem_filter.1 ha
  obtain ⟨ha', hlater⟩ :=
    mem_appointments_poll_iff.1 (mem_appointments_of_after (List.mem_of_mem_filter ha'))
  exact hp.not_mem_later ha ha' (of_decide_eq_true hdue) hlater hsa hsa'

/-- A group leaves the plan when its time has come, and not before. If the connection stands at every
look, all of its patterns have been accepted by then exactly if none of them was refused; and no
later poll requests a pattern again, whatever its answer was. -/
theorem subscribed_iff_none_refused (hfilter : ∀ s : Subject, s.filter root = .ok (filter s))
    {p : Plan} (hp : p.IsPart) (now : Instant) (t : τ)
    (hlooks : ∀ b, Contact.look b ∈ (p.poll now root (⟨t, []⟩ : Watched τ)).transport.contacts →
      b = true) :
    let round := p.poll now root (⟨t, []⟩ : Watched τ)
    let answered := fun s => answers (filter s) round.transport.contacts
    ∀ a ∈ p.appointments,
      (now < a.time → a ∈ round.plan.appointments ∧ ∀ s ∈ a.group.subjects, answered s = []) ∧
      (a.time ≤ now → a ∉ round.plan.appointments ∧
        ((∀ s ∈ a.group.subjects, answered s = [true]) ↔
          ∀ s ∈ a.group.subjects, false ∉ answered s) ∧
        ∀ s ∈ a.group.subjects, ∀ (polls : List (Instant × τ)) (now' : Instant) (t' : τ),
          answers (filter s) ((round.plan.after root polls).poll now' root
            (⟨t', []⟩ : Watched τ)).transport.contacts = []) := by
  intro round answered a ha
  refine ⟨fun hearly => ?early, fun hdue => ?due⟩
  case early =>
    have hlater := Instant.lt_iff_not_le.1 hearly
    refine ⟨mem_appointments_poll_iff.2 ⟨ha, hlater⟩, fun s hs => ?_⟩
    exact answers_of_not_mem hfilter (fun hs' => hlater ((hp.mem_dueSubjects_iff ha hs).1 hs')) t
  case due =>
    have hmem : ∀ s ∈ a.group.subjects, s ∈ p.dueSubjects now := fun s hs =>
      (hp.mem_dueSubjects_iff ha hs).2 hdue
    refine ⟨fun hstays => (mem_appointments_poll_iff.1 hstays).2 hdue, ?_, fun s hs => ?_⟩
    · refine forall₂_congr fun s hs => ?_
      obtain ⟨accepted, hanswer⟩ := hp.exists_answer hfilter hlooks (hmem s hs)
      show answered s = [true] ↔ false ∉ answered s
      rw [show answered s = [accepted] from hanswer]
      cases accepted <;> simp
    · exact hp.answers_later hfilter (hmem s hs) _

end Answers

end Plan

end Subscription

/-- A transport that is always connected and has room for so many calls. -/
structure Crowded where
  room : Nat

instance : Transport Crowded where
  isConnected t := (true, t)
  publish t _ _ _ := if 0 < t.room then (.ok (), ⟨t.room - 1⟩) else (.error .bufferFull, t)
  subscribe t _ := if 0 < t.room then (.ok (), ⟨t.room - 1⟩) else (.error .bufferFull, t)

namespace Subscription

namespace Plan

/-- There is room for the first group and for one pattern of the second, whose other two are lost. -/
theorem subscribed_iff_none_refused_hall :
    ∃ (filter : Subject → Topic) (p : Plan), (∀ s : Subject, s.filter "hall" = .ok (filter s)) ∧
      schedule? Instant.zero = some p ∧
      let round := p.poll ⟨12000000⟩ "hall" (⟨⟨3⟩, []⟩ : Watched Crowded)
      let answered := fun s => answers (filter s) round.transport.contacts
      (∀ b, Contact.look b ∈ round.transport.contacts → b = true) ∧
      (answered <$> [.kind .color, .kind .baseColor, .kind .brightness, .kind .mode, .strobe]) =
        [[true], [true], [true], [false], [false]] ∧
      ∀ a ∈ p.appointments, a.time = ⟨10000000⟩ → a ∉ round.plan.appointments ∧
        ∀ s ∈ a.group.subjects, ∀ t : Crowded, answers (filter s) (round.plan.poll ⟨15000000⟩ "hall"
          (⟨t, []⟩ : Watched Crowded)).transport.contacts = [] := by
  have hfilter := Subject.filter_eq_ok_pattern ⟨"hall", by decide⟩
  have hplan : schedule? Instant.zero = some ((schedule? Instant.zero).getD empty) := rfl
  have hlooks := looks_poll (fun _ : Crowded => rfl) "hall" ((schedule? Instant.zero).getD empty)
    ⟨12000000⟩ ⟨3⟩
  refine ⟨_, _, hfilter, hplan, hlooks, by decide +kernel, fun a ha htime => ?_⟩
  obtain ⟨_, hdue⟩ :=
    subscribed_iff_none_refused hfilter (isPart_schedule hplan) ⟨12000000⟩ _ hlooks a ha
  obtain ⟨hleaves, _, hlater⟩ := hdue (htime ▸ by decide)
  exact ⟨hleaves, fun s hs t => hlater s hs [] ⟨15000000⟩ t⟩

/-- On a connection that stands, the request of the last group may find no room, and then its group
is dropped all the same. -/
theorem refused_dropped :
    ¬ ∀ (τ : Type) [Transport τ], (∀ t : τ, (Transport.isConnected t).1 = true) →
      ∀ (root : String) (filter : Subject → Topic),
      (∀ s : Subject, s.filter root = .ok (filter s)) →
      ∀ (since : Instant) (p : Plan), schedule? since = some p → ∀ (now : Instant) (t : τ),
      ∀ a ∈ p.appointments,
        a ∉ (p.poll now root (⟨t, []⟩ : Watched τ)).plan.appointments → ∀ s ∈ a.group.subjects,
        true ∈ answers (filter s) (p.poll now root (⟨t, []⟩ : Watched τ)).transport.contacts := by
  intro hall
  have hanswer := hall Crowded (fun _ => rfl) "h" _
    (Subject.filter_eq_ok_pattern ⟨"h", by decide⟩) Instant.zero _ rfl ⟨20000000⟩ ⟨6⟩
    ⟨⟨20000000⟩, ⟨Duration.ofSeconds 20, [.kind .random]⟩⟩ (by decide) (by decide +kernel)
    (.kind .random) (by decide)
  exact absurd hanswer (by decide +kernel)

end Plan

end Subscription

end Luminaire
