import Luminaire.Broker.Subscription
import Luminaire.Proofs.Message.Topics

/-!
# What a broker keeps

Seen from a node, a broker is a map from topics to the last payload that was accepted under them.
It is read off the record of the calls: an accepted message replaces what was kept under its
topic, and nothing else changes the map.

The messages about a channel go out one by one and any of them may be refused, so the map can be
left with some entries replaced and others not. Two facts are enough to follow it. What a round
did not send it did not touch (`store_sendAttributes`), and a round that went through has left
every attribute as it is (`store_of_sendAttributes_ok`). The second needs that no message of the
round overwrites an earlier one, which is that their topics differ.
-/

namespace Luminaire

/-- The message that was handed over in the call, if there was one and it was accepted. -/
def Call.delivered? (c : Call) : Option (Topic × String) :=
  match c.request, c.outcome with
  | .publish topic payload _, .ok _ => some (topic, payload)
  | _, _ => none

/-- The payload that is kept under each topic. -/
abbrev Store := Topic → Option String

namespace Store

def empty : Store := fun _ => none

def put (store : Store) (topic : Topic) (payload : String) : Store := fun t =>
  if t = topic then some payload else store t

/-- The store after a call. -/
def after (store : Store) (c : Call) : Store :=
  match c.delivered? with
  | some (topic, payload) => store.put topic payload
  | none => store

/-- The store after all calls of a record, the oldest first. -/
def ofCalls (calls : List Call) : Store := calls.foldl after empty

theorem ofCalls_append_singleton (calls : List Call) (c : Call) :
    ofCalls (calls ++ [c]) = (ofCalls calls).after c :=
  List.foldl_append

theorem put_same (store : Store) (topic : Topic) (payload : String) :
    store.put topic payload topic = some payload := if_pos rfl

theorem put_of_ne (store : Store) {t topic : Topic} (payload : String) (h : t ≠ topic) :
    store.put topic payload t = store t := if_neg h

theorem foldl_after_eq_none_iff (calls : List Call) (store : Store) (topic : Topic) :
    calls.foldl after store topic = none ↔
      store topic = none ∧ ∀ c ∈ calls, ∀ payload, c.delivered? ≠ some (topic, payload) := by
  induction calls generalizing store with
  | nil => simp
  | cons c calls ih =>
      rw [List.foldl_cons, ih, List.forall_mem_cons, after]
      cases hc : c.delivered? with
      | none => simp
      | some message =>
          obtain ⟨t, payload⟩ := message
          by_cases ht : topic = t
          · subst ht
            simp [put_same]
          · simp [put_of_ne _ _ ht, Ne.symm ht]

/-- Nothing is kept under a topic exactly if no message was ever accepted under it. -/
theorem ofCalls_eq_none_iff (calls : List Call) (topic : Topic) :
    ofCalls calls topic = none ↔
      ∀ c ∈ calls, ∀ payload, c.delivered? ≠ some (topic, payload) := by
  rw [ofCalls, foldl_after_eq_none_iff]
  exact and_iff_right rfl

/-- Nothing is kept about the channel of this number. -/
def Silent (store : Store) (root : String) (number : Nat) : Prop :=
  ∀ (a : Attribute) (t : Topic), Topic.state root number a.word = .ok t → store t = none

/-- Every attribute of the channel is kept as it is. -/
def Tells (store : Store) (root : String) (number : Nat) (c : Channel) : Prop :=
  ∀ a : Attribute, ∃ t, Topic.state root number a.word = .ok t ∧ store t = some (a.report c)

end Store

namespace Recorded

variable {τ : Type} [Transport τ]

/-- What the broker keeps after the calls on record. -/
def store (r : Recorded τ) : Store := Store.ofCalls r.calls

theorem calls_isConnected (r : Recorded τ) : (Transport.isConnected r).2.calls = r.calls := rfl

theorem store_subscribe (r : Recorded τ) (filter : Topic) :
    (Transport.subscribe r filter).2.store = r.store :=
  Store.ofCalls_append_singleton r.calls _

theorem store_publish (r : Recorded τ) (topic : Topic) (payload : String) (retain : Bool) :
    (Transport.publish r topic payload retain).2.store =
      match (Transport.publish r topic payload retain).1 with
      | .ok _ => r.store.put topic payload
      | .error _ => r.store := by
  refine (Store.ofCalls_append_singleton r.calls _).trans ?_
  show Store.after r.store ⟨_, _, (Transport.publish r.transport topic payload retain).1⟩ =
    match (Transport.publish r.transport topic payload retain).1 with
    | .ok _ => r.store.put topic payload
    | .error _ => r.store
  cases (Transport.publish r.transport topic payload retain).1 with
  | ok _ => rfl
  | error _ => rfl

end Recorded

theorem Attribute.mem_all (a : Attribute) : a ∈ Attribute.all := by
  cases a <;> decide

namespace Publisher

variable {n : Nat} {τ : Type} [Transport τ]

theorem store_send (topic : Except CapacityError Topic) (payload : String) (r : Recorded τ) :
    (∃ t, topic = .ok t ∧ (send topic payload r).1 = .ok () ∧
      (send topic payload r).2.store = r.store.put t payload) ∨
    (∃ e, (send topic payload r).1 = .error e) ∧ (send topic payload r).2.store = r.store := by
  cases topic with
  | error e => exact Or.inr ⟨⟨_, rfl⟩, rfl⟩
  | ok t =>
      have hstore := r.store_publish t payload retain
      rw [send]
      split
      next next' hok =>
        rw [hok] at hstore
        exact Or.inl ⟨t, rfl, rfl, hstore⟩
      next e next' herror =>
        rw [herror] at hstore
        exact Or.inr ⟨⟨_, rfl⟩, hstore⟩

/-- A round of messages about a channel touches no topics but those of its attributes, and what it
leaves there is the attribute. -/
theorem store_sendAttributes (root : String) (number : Nat) (c : Channel) (as : List Attribute)
    (r : Recorded τ) (t : Topic) :
    (sendAttributes root number c as r).2.store t = r.store t ∨
      ∃ a ∈ as, Topic.state root number a.word = .ok t ∧
        (sendAttributes root number c as r).2.store t = some (a.report c) := by
  induction as generalizing r with
  | nil => exact Or.inl rfl
  | cons a as ih =>
      have hsend := store_send (Topic.state root number a.word) (a.report c) r
      rw [sendAttributes_cons]
      split
      next r' hok =>
        rw [hok] at hsend
        rcases hsend with ⟨t', htopic, _, hstore⟩ | ⟨⟨e, herror⟩, _⟩
        · rcases ih r' with hsame | ⟨a', hmem, htopic', hreport⟩
          · by_cases ht : t = t'
            · subst ht
              refine Or.inr ⟨a, List.mem_cons_self, htopic, hsame.trans ?_⟩
              exact (congrFun hstore t).trans (Store.put_same r.store t _)
            · refine Or.inl (hsame.trans ?_)
              exact (congrFun hstore t).trans (Store.put_of_ne r.store _ ht)
          · exact Or.inr ⟨a', List.mem_cons_of_mem a hmem, htopic', hreport⟩
        · cases herror
      next e r' herror =>
        rw [herror] at hsend
        rcases hsend with ⟨_, _, hok, _⟩ | ⟨_, hstore⟩
        · cases hok
        · exact Or.inl (congrFun hstore t)

/-- After a round that went through, the broker keeps each attribute as it was sent. -/
theorem store_of_sendAttributes_ok {root : String} {number : Nat} {c : Channel}
    {as : List Attribute} {r : Recorded τ}
    (h : (sendAttributes root number c as r).1 = .ok ()) :
    ∀ a ∈ as, ∃ t, Topic.state root number a.word = .ok t ∧
      (sendAttributes root number c as r).2.store t = some (a.report c) := by
  induction as generalizing r with
  | nil => simp
  | cons a as ih =>
      have hsend := store_send (Topic.state root number a.word) (a.report c) r
      rw [sendAttributes_cons] at h ⊢
      split at h
      next r' hok =>
        rw [hok] at hsend
        rcases hsend with ⟨t, htopic, _, hstore⟩ | ⟨⟨e, herror⟩, _⟩
        · refine List.forall_mem_cons.2 ⟨⟨t, htopic, ?_⟩, ih h⟩
          rcases store_sendAttributes root number c as r' t with hsame | ⟨a', _, htopic', hreport⟩
          · exact hsame.trans ((congrFun hstore t).trans (Store.put_same r.store t _))
          · obtain ⟨_, hword⟩ := Topic.state_inj htopic htopic'
            rw [Attribute.word_injective hword]
            exact hreport
        · cases herror
      next => cases h

theorem store_pollOnline (p : Publisher) (root : String) (r : Recorded τ) (t : Topic) :
    (p.pollOnline root r).2.store t = r.store t ∨ Topic.will root = .ok t := by
  have hsend := store_send (Topic.will root) onlineMessage r
  rw [pollOnline, sendOnline]
  split
  next =>
    split
    next r' hok =>
      rw [hok] at hsend
      rcases hsend with ⟨t', htopic, _, hstore⟩ | ⟨⟨e, herror⟩, _⟩
      · by_cases ht : t = t'
        · subst ht
          exact Or.inr htopic
        · exact Or.inl ((congrFun hstore t).trans (Store.put_of_ne r.store _ ht))
      · cases herror
    next e r' herror =>
      rw [herror] at hsend
      rcases hsend with ⟨_, _, hok, _⟩ | ⟨_, hstore⟩
      · cases hok
      · exact Or.inl (congrFun hstore t)
  next => exact Or.inl rfl

theorem store_pollChannel (b : Board n) (root : String) (r : Recorded τ) (t : Topic) :
    (pollChannel b root r).2.2.store t = r.store t ∨
      ∃ i, b.firstPending? = some i ∧
        ∃ a : Attribute, Topic.state root (i + 1) a.word = .ok t := by
  rw [pollChannel]
  split
  next => exact Or.inl rfl
  next i hpending =>
    have hround := store_sendAttributes root (i + 1) b.channels[i] Attribute.all r t
    rw [sendChannel]
    split
    all_goals
      next hsent =>
        rw [hsent] at hround
        rcases hround with hsame | ⟨a, _, htopic, _⟩
        · exact Or.inl hsame
        · exact Or.inr ⟨i, hpending, a, htopic⟩

theorem tells_pollChannel (b : Board n) (root : String) (r : Recorded τ) :
    (pollChannel b root r).2.1 = b ∨
      ∃ (i : Nat) (h : i < n), b.firstPending? = some ⟨i, h⟩ ∧
        (pollChannel b root r).2.1 = b.markPublished ⟨i, h⟩ ∧
        (pollChannel b root r).2.2.store.Tells root (i + 1) b.channels[i] := by
  rw [pollChannel]
  split
  next => exact Or.inl rfl
  next i hpending =>
    rw [sendChannel]
    split
    next r' hok =>
      refine Or.inr ⟨i, i.isLt, hpending, rfl, fun a => ?_⟩
      have hround := store_of_sendAttributes_ok (congrArg Prod.fst hok) a (Attribute.mem_all a)
      rw [hok] at hround
      exact hround
    next => exact Or.inl rfl

/-- A poll touches no topics but that of the presence message and those of the first pending
channel. -/
theorem store_poll (p : Publisher) (b : Board n) (root : String) (r : Recorded τ) (t : Topic) :
    (p.poll b root r).transport.store t = r.store t ∨ Topic.will root = .ok t ∨
      ∃ i, b.firstPending? = some i ∧
        ∃ a : Attribute, Topic.state root (i + 1) a.word = .ok t := by
  rw [poll]
  split
  next r' hconnected =>
    have hcalls := r.calls_isConnected
    rw [hconnected] at hcalls
    exact Or.inl (congrArg (fun calls => Store.ofCalls calls t) hcalls)
  next r' hconnected =>
    have hcalls := r.calls_isConnected
    rw [hconnected] at hcalls
    rcases store_pollChannel b root (p.pollOnline root r').2 t with hsame | htold
    · rcases store_pollOnline p root r' t with hsame' | hwill
      · refine Or.inl (hsame.trans (hsame'.trans ?_))
        exact congrArg (fun calls => Store.ofCalls calls t) hcalls
      · exact Or.inr (Or.inl hwill)
    · exact Or.inr (Or.inr htold)

/-- A channel loses its pending flag only when the broker has all of its attributes. -/
theorem tells_poll (p : Publisher) (b : Board n) (root : String) (r : Recorded τ) :
    (p.poll b root r).board = b ∨
      ∃ (i : Nat) (h : i < n), b.firstPending? = some ⟨i, h⟩ ∧
        (p.poll b root r).board = b.markPublished ⟨i, h⟩ ∧
        (p.poll b root r).transport.store.Tells root (i + 1) b.channels[i] := by
  rw [poll]
  split
  next => exact Or.inl rfl
  next r' _ => exact tells_pollChannel b root (p.pollOnline root r').2

end Publisher

namespace Subscription

variable {τ : Type} [Transport τ]

theorem store_subscribe (root : String) (subjects : List Subject) (r : Recorded τ) :
    (subscribe root subjects r).2.store = r.store := by
  induction subjects generalizing r with
  | nil => rfl
  | cons s rest ih =>
      rw [subscribe]
      split
      next => exact ih r
      next filter _ =>
        have hstore := r.store_subscribe filter
        split
        all_goals
          next r' hsent =>
            rw [hsent] at hstore
            exact (ih r').trans hstore

theorem store_subscribe_group (g : Group) (root : String) (r : Recorded τ) :
    (g.subscribe root r).2.store = r.store := by
  have hcalls := r.calls_isConnected
  rw [Group.subscribe]
  split
  next r' hconnected =>
    rw [hconnected] at hcalls
    exact congrArg Store.ofCalls hcalls
  next r' hconnected =>
    rw [hconnected] at hcalls
    exact (store_subscribe root g.subjects r').trans (congrArg Store.ofCalls hcalls)

theorem store_meet (now : Instant) (root : String) (appointments : List Appointment)
    (r : Recorded τ) : (meet now root appointments r).2.2.store = r.store := by
  induction appointments generalizing r with
  | nil => rfl
  | cons a rest ih =>
      rw [meet]
      split
      · exact (ih _).trans (store_subscribe_group a.group root r)
      · exact ih r

/-- Subscribing publishes nothing. -/
theorem Plan.store_poll (p : Plan) (now : Instant) (root : String) (r : Recorded τ) :
    (p.poll now root r).transport.store = r.store :=
  store_meet now root p.appointments r

end Subscription

end Luminaire
