import Luminaire.Proofs.Broker.Contacts
import Luminaire.Proofs.Message.Topics
import Mathlib.Data.List.Forall2
import Mathlib.Data.List.Nodup

/-!
# The stages of a subscription

A group whose time has come is one stage: a look at the connection, then a request for each of its
patterns that is not too long, or no request at all. A refused request does not end the stage, so
what is requested of a transport depends on nothing but that look.
-/

namespace Luminaire

namespace Stage

variable {α : Type} {wanted : α → List Request} {turns : List α} {stages : List Stage}

/-- Nothing but what is wanted is requested. -/
theorem sublist_requests (h : List.Forall₂ (fun a s => s.Makes (wanted a)) turns stages) :
    ((stages.flatMap contacts).filterMap Contact.request?).Sublist (turns.flatMap wanted) := by
  induction h with
  | nil => exact .slnil
  | @cons a s turns stages hmakes _ ih =>
      rw [List.flatMap_cons, List.filterMap_append, s.requests_contacts, hmakes, List.flatMap_cons]
      refine List.Sublist.append ?_ ih
      split
      · exact .refl _
      · exact List.nil_sublist _

/-- If every look shows a connection, all that is wanted is requested. -/
theorem requests_of_connected (h : List.Forall₂ (fun a s => s.Makes (wanted a)) turns stages)
    (hconnected : ∀ s ∈ stages, s.connected = true) :
    (stages.flatMap contacts).filterMap Contact.request? = turns.flatMap wanted := by
  induction h with
  | nil => rfl
  | @cons a s turns stages hmakes _ ih =>
      obtain ⟨hfirst, hrest⟩ := List.forall_mem_cons.1 hconnected
      rw [List.flatMap_cons, List.filterMap_append, s.requests_contacts, hmakes, if_pos hfirst,
        ih hrest, List.flatMap_cons]

end Stage

namespace Subscription

/-- The requests for some subjects. A pattern that is too long is not requested. -/
def requests (root : String) (subjects : List Subject) : List Request :=
  subjects.filterMap fun s => (s.filter root).toOption.map Request.subscribe

theorem requests_cons_of_error {root : String} {s : Subject} {e : CapacityError}
    (h : s.filter root = .error e) (rest : List Subject) :
    requests root (s :: rest) = requests root rest := by
  rw [requests, List.filterMap_cons, h]
  rfl

theorem requests_cons_of_ok {root : String} {s : Subject} {filter : Topic}
    (h : s.filter root = .ok filter) (rest : List Subject) :
    requests root (s :: rest) = .subscribe filter :: requests root rest := by
  rw [requests, List.filterMap_cons, h]
  rfl

theorem requests_of_fits {root : String} {filter : Subject → Topic}
    (h : ∀ s : Subject, s.filter root = .ok (filter s)) (subjects : List Subject) :
    requests root subjects = subjects.map fun s => .subscribe (filter s) := by
  induction subjects with
  | nil => rfl
  | cons s rest ih => rw [requests_cons_of_ok (h s), ih, List.map_cons]

/-- No two subjects make the same request. -/
theorem nodup_requests (root : String) {subjects : List Subject} (h : subjects.Nodup) :
    (requests root subjects).Nodup := by
  refine List.Nodup.filterMap (fun s s' r hr hr' => ?_) h
  obtain ⟨filter, hfilter, rfl⟩ := Option.map_eq_some_iff.1 hr
  obtain ⟨filter', hfilter', heq⟩ := Option.map_eq_some_iff.1 hr'
  obtain rfl := Request.subscribe.inj heq
  have hok : ∀ s : Subject, (s.filter root).toOption = some filter' →
      s.filter root = .ok filter' := by
    intro s hs
    cases hfit : s.filter root with
    | error e =>
        rw [hfit] at hs
        cases hs
    | ok found =>
        rw [hfit] at hs
        exact congrArg Except.ok (Option.some.inj hs)
  exact Subject.filter_inj (hok s hfilter) (hok s' hfilter')

variable {τ : Type} [Transport τ]

theorem subscribe_cons_of_error {root : String} {s : Subject} {e : CapacityError}
    (h : s.filter root = .error e) (rest : List Subject) (t : τ) :
    subscribe root (s :: rest) t = subscribe root rest t := by
  rw [subscribe, h]

theorem subscribe_cons_of_ok {root : String} {s : Subject} {filter : Topic}
    (h : s.filter root = .ok filter) (rest : List Subject) (t : τ) :
    subscribe root (s :: rest) t =
      ((subscribe root rest (Transport.subscribe t filter).2).1 +
          (if (Transport.subscribe t filter).1.isOk then 1 else 0),
        (subscribe root rest (Transport.subscribe t filter).2).2) := by
  simp only [subscribe, h]
  rcases Transport.subscribe t filter with ⟨outcome, t'⟩
  cases outcome with
  | ok => rfl
  | error => rfl

theorem made_subscribe (root : String) (subjects : List Subject) (w : Watched τ) :
    ∃ calls, Watched.Made calls w (subscribe root subjects w).2 ∧
      calls.map Call.request = requests root subjects ∧
      (subscribe root subjects w).1 = calls.countP Call.accepted := by
  induction subjects generalizing w with
  | nil => exact ⟨[], .nil w, rfl, rfl⟩
  | cons s rest ih =>
      cases hfilter : s.filter root with
      | error e =>
          rw [requests_cons_of_error hfilter, subscribe_cons_of_error hfilter]
          exact ih w
      | ok filter =>
          obtain ⟨calls, hmade, hrequests, haccepted⟩ := ih (Transport.subscribe w filter).2
          rw [requests_cons_of_ok hfilter, subscribe_cons_of_ok hfilter, haccepted]
          refine ⟨_, .subscribe filter hmade, ?_, ?_⟩
          · rw [List.map_cons, hrequests]
          · rw [List.countP_cons]
            rfl

/-- The turn of a group is a stage. -/
theorem Group.leads_subscribe (g : Group) (root : String) (w : Watched τ) :
    ∃ s : Stage, s.Leads w (g.subscribe root w).2 ∧ s.Makes (requests root g.subjects) ∧
      (g.subscribe root w).1 = s.calls.countP Call.accepted := by
  rcases hlook : Transport.isConnected w with ⟨connected, w'⟩
  cases connected with
  | false =>
      refine ⟨⟨false, []⟩, ⟨?_, ?_, fun _ => rfl⟩, rfl, ?_⟩
      · rw [hlook]
      · rw [Group.subscribe, hlook]
        exact .nil w'
      · rw [Group.subscribe, hlook]
        rfl
  | true =>
      obtain ⟨calls, hmade, hrequests, haccepted⟩ := made_subscribe root g.subjects w'
      refine ⟨⟨true, calls⟩, ⟨?_, ?_, ?_⟩, hrequests, ?_⟩
      · rw [hlook]
      · rw [Group.subscribe, hlook]
        exact hmade
      · exact fun h => nomatch h
      · rw [Group.subscribe, hlook]
        exact haccepted

/-- Each appointment that is met is a stage. -/
theorem leads_meet (now : Instant) (root : String) (appointments : List Appointment)
    (w : Watched τ) :
    ∃ stages : List Stage, Stage.Lead stages w (meet now root appointments w).2.2 ∧
      List.Forall₂ (fun a s => s.Makes (requests root a.group.subjects))
        (appointments.filter (·.time ≤ now)) stages ∧
      (meet now root appointments w).2.1 = (stages.flatMap Stage.calls).countP Call.accepted := by
  induction appointments generalizing w with
  | nil => exact ⟨[], .nil w, .nil, rfl⟩
  | cons a rest ih =>
      by_cases hdue : a.time ≤ now
      · obtain ⟨s, hleads, hmakes, hnow⟩ := a.group.leads_subscribe root w
        obtain ⟨stages, hlead, hturns, hlater⟩ := ih (a.group.subscribe root w).2
        rw [List.filter_cons_of_pos (by simpa using hdue), meet, if_pos hdue]
        refine ⟨s :: stages, .cons hleads hlead, .cons hmakes hturns, ?_⟩
        rw [List.flatMap_cons, List.countP_append, ← hnow, ← hlater]
      · rw [List.filter_cons_of_neg (by simpa using hdue), meet, if_neg hdue]
        exact ih w

end Subscription

end Luminaire
