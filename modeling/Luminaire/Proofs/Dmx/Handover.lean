import Luminaire.Dmx.Inbox

/-!
# Handing over universes

Whoever writes to an inbox and whoever reads from it know nothing of each other, so all that can be
said is about the order in which they come. A `Log` has what was done to an inbox and what came of
it. A universe `Waits` at the end of a log if it was the last one to be stored and none was handed
out after it, and this is what the next one to take gets. So the universes that are handed out are
some of those that were stored, in the same order (`handed_sublist`).

An inbox that is taken from forgets its universe. A `Shelf` does not: it keeps the last universe and
a flag that says whether it is new. Nobody can tell the two apart, since what is not new is never
handed out.
-/

namespace Luminaire

namespace Dmx

/-- What can be done to an inbox. -/
inductive Act where
  | store (slots : Array UInt8)
  | look
  | take
deriving DecidableEq

/-- The universe that an act brings. -/
def Act.universe? : Act → Option (Array UInt8)
  | .store slots => some slots
  | _ => none

/-- What comes of it. -/
inductive Answer where
  | stored
  /-- The universe is too long, and this is its length. -/
  | refused (length : Nat)
  | looked (hasNew : Bool)
  | taken (slots : Option (Array UInt8))
deriving DecidableEq

/-- Acts with their answers, the first one first. -/
abbrev Log := List (Act × Answer)

/-- Acts one after the other: the log, and what there is after them. -/
def logged {σ : Type} (perform : σ → Act → Answer × σ) : σ → List Act → Log × σ
  | s, [] => ([], s)
  | s, act :: rest =>
      let (answer, s) := perform s act
      let (log, s) := logged perform s rest
      ((act, answer) :: log, s)

theorem logged_cons {σ : Type} (perform : σ → Act → Answer × σ) (s : σ) (act : Act)
    (rest : List Act) :
    logged perform s (act :: rest) =
      ((act, (perform s act).1) :: (logged perform (perform s act).2 rest).1,
        (logged perform (perform s act).2 rest).2) := rfl

theorem snd_logged_append {σ : Type} (perform : σ → Act → Answer × σ) (s : σ)
    (first second : List Act) :
    (logged perform s (first ++ second)).2 =
      (logged perform (logged perform s first).2 second).2 := by
  induction first generalizing s with
  | nil => rfl
  | cons act rest ih => exact ih (perform s act).2

/-- Two places that answer alike have the same log. -/
theorem logged_of_view {σ ρ : Type} {perform : σ → Act → Answer × σ}
    {perform' : ρ → Act → Answer × ρ} {view : σ → ρ}
    (h : ∀ s act, perform' (view s) act = ((perform s act).1, view (perform s act).2)) (s : σ)
    (acts : List Act) :
    logged perform' (view s) acts = ((logged perform s acts).1, view (logged perform s acts).2) := by
  induction acts generalizing s with
  | nil => rfl
  | cons act rest ih => rw [logged_cons, logged_cons, h, ih]

/-- The universe that was stored with an act. -/
def arrival? : Act × Answer → Option (Array UInt8)
  | (.store slots, .stored) => some slots
  | _ => none

/-- The universe that was handed out with an act. -/
def departure? : Act × Answer → Option (Array UInt8)
  | (.take, .taken slots) => slots
  | _ => none

/-- The universes that were stored. -/
def stored (log : Log) : List (Array UInt8) := log.filterMap arrival?

/-- The universes that were handed out. -/
def handed (log : Log) : List (Array UInt8) := log.filterMap departure?

/-- Nothing was stored and nothing was handed out. -/
def Quiet (log : Log) : Prop := ∀ entry ∈ log, arrival? entry = none ∧ departure? entry = none

instance : DecidablePred Quiet := fun log =>
  inferInstanceAs (Decidable (∀ entry ∈ log, arrival? entry = none ∧ departure? entry = none))

/-- The universe was stored, and nothing was stored or handed out since. -/
def Waits (slots : Array UInt8) (log : Log) : Prop :=
  ∃ before after, log = before ++ (.store slots, .stored) :: after ∧ Quiet after

theorem stored_cons (entry : Act × Answer) (log : Log) :
    stored (entry :: log) = (arrival? entry).toList ++ stored log := by
  rw [stored, List.filterMap_cons]
  cases arrival? entry <;> rfl

theorem handed_cons (entry : Act × Answer) (log : Log) :
    handed (entry :: log) = (departure? entry).toList ++ handed log := by
  rw [handed, List.filterMap_cons]
  cases departure? entry <;> rfl

theorem quiet_cons (entry : Act × Answer) (log : Log) :
    Quiet (entry :: log) ↔ (arrival? entry = none ∧ departure? entry = none) ∧ Quiet log :=
  List.forall_mem_cons

theorem waits_cons (slots : Array UInt8) (entry : Act × Answer) (log : Log) :
    Waits slots (entry :: log) ↔ entry = (.store slots, .stored) ∧ Quiet log ∨ Waits slots log := by
  constructor
  · rintro ⟨before, after, hlog, hquiet⟩
    cases before with
    | nil =>
        obtain ⟨rfl, rfl⟩ := List.cons.inj hlog
        exact Or.inl ⟨rfl, hquiet⟩
    | cons first before =>
        obtain ⟨rfl, rfl⟩ := List.cons.inj hlog
        exact Or.inr ⟨before, after, rfl, hquiet⟩
  · rintro (⟨rfl, hquiet⟩ | ⟨before, after, rfl, hquiet⟩)
    · exact ⟨[], log, rfl, hquiet⟩
    · exact ⟨entry :: before, after, rfl, hquiet⟩

theorem not_waits_nil (slots : Array UInt8) : ¬ Waits slots [] := by
  rintro ⟨before, after, hlog, -⟩
  cases before <;> cases hlog

namespace Inbox

variable {size : Nat}

/-- The universe that is waiting, without the proof that it fits. -/
def slots? (box : Inbox size) : Option (Array UInt8) := box.take.1

/-- An act in place. A universe that is refused leaves the inbox as it was. -/
def perform (box : Inbox size) : Act → Answer × Inbox size
  | .store slots =>
      match box.store slots with
      | .ok box => (.stored, box)
      | .error e => (.refused e.length, box)
  | .look => (.looked box.hasNew, box)
  | .take => (.taken box.take.1, box.take.2)

theorem slots?_injective : Function.Injective (slots? : Inbox size → Option (Array UInt8)) := by
  rintro ⟨waiting⟩ ⟨waiting'⟩ h
  exact congrArg mk ((Option.map_inj_right fun _ _ => Subtype.ext).1 h)

theorem perform_store_of_le (box : Inbox size) {slots : Array UInt8} (h : slots.size ≤ size) :
    box.perform (.store slots) = (.stored, ⟨some ⟨slots, h⟩⟩) := by
  rw [perform, store_of_le box h]

theorem perform_store_of_lt (box : Inbox size) {slots : Array UInt8} (h : size < slots.size) :
    box.perform (.store slots) = (.refused slots.size, box) := by
  rw [perform, store_of_lt box h]

/-- All that an act can do to the universe that is waiting. -/
theorem perform_cases (box : Inbox size) (act : Act) :
    (∃ slots, act = .store slots ∧ (box.perform act).1 = .stored ∧
      (box.perform act).2.slots? = some slots) ∨
    (∃ slots, act = .take ∧ (box.perform act).1 = .taken (some slots) ∧
      box.slots? = some slots ∧ (box.perform act).2.slots? = none) ∨
    (arrival? (act, (box.perform act).1) = none ∧ departure? (act, (box.perform act).1) = none ∧
      (box.perform act).2 = box) := by
  cases act with
  | store slots =>
      rcases Nat.lt_or_ge size slots.size with hlong | hfits
      · rw [perform_store_of_lt box hlong]
        exact Or.inr (Or.inr ⟨rfl, rfl, rfl⟩)
      · rw [perform_store_of_le box hfits]
        exact Or.inl ⟨slots, rfl, rfl, rfl⟩
  | look => exact Or.inr (Or.inr ⟨rfl, rfl, rfl⟩)
  | take =>
      obtain ⟨waiting⟩ := box
      cases waiting with
      | none => exact Or.inr (Or.inr ⟨rfl, rfl, rfl⟩)
      | some slots => exact Or.inr (Or.inl ⟨slots.1, rfl, rfl, rfl, rfl⟩)

/-- What waits in the inbox after some acts has come with one of them, or it was there before and the
acts have left it. -/
theorem slots?_logged_iff (box : Inbox size) (acts : List Act) (slots : Array UInt8) :
    (logged perform box acts).2.slots? = some slots ↔
      Waits slots (logged perform box acts).1 ∨
        box.slots? = some slots ∧ Quiet (logged perform box acts).1 := by
  induction acts generalizing box with
  | nil => simp [logged, not_waits_nil, Quiet]
  | cons act rest ih =>
      rw [logged_cons]
      simp only [ih, waits_cons, quiet_cons, Prod.mk.injEq]
      rcases box.perform_cases act with
        ⟨slots', rfl, hanswer, hnext⟩ | ⟨slots', rfl, hanswer, hbefore, hnext⟩ |
          ⟨harrival, hdeparture, hsame⟩
      · -- What was there before is replaced.
        simp [hanswer, hnext, arrival?, or_comm]
      · -- What was there before is handed out.
        simp [hanswer, hnext, departure?]
      · have hstored : ¬ (act = .store slots ∧ (box.perform act).1 = .stored) := by
          rintro ⟨hact, hanswer⟩
          rw [hact] at harrival hanswer
          rw [hanswer] at harrival
          cases harrival
        simp [hstored, harrival, hdeparture, hsame]

/-- What is stored is all that is not too long. -/
theorem stored_logged (box : Inbox size) (acts : List Act) :
    stored (logged perform box acts).1 =
      (acts.filterMap Act.universe?).filter (·.size ≤ size) := by
  induction acts generalizing box with
  | nil => rfl
  | cons act rest ih =>
      rw [logged_cons, stored_cons, ih]
      cases act with
      | store slots =>
          show _ = (slots :: rest.filterMap Act.universe?).filter _
          rcases Nat.lt_or_ge size slots.size with hlong | hfits
          · rw [perform_store_of_lt box hlong, List.filter_cons_of_neg (by simpa using hlong)]
            rfl
          · rw [perform_store_of_le box hfits, List.filter_cons_of_pos (by simpa using hfits)]
            rfl
      | look => rfl
      | take => rfl

/-- An inbox that nobody takes from has the last universe that was stored. -/
theorem slots?_logged_of_no_take (box : Inbox size) {acts : List Act}
    (h : ∀ act ∈ acts, act ≠ .take) :
    (logged perform box acts).2.slots? =
      (stored (logged perform box acts).1).getLast?.or box.slots? := by
  induction acts generalizing box with
  | nil => rfl
  | cons act rest ih =>
      obtain ⟨hact, hrest⟩ := List.forall_mem_cons.1 h
      rw [logged_cons, stored_cons]
      show (logged perform (box.perform act).2 rest).2.slots? = _
      rw [ih _ hrest]
      rcases box.perform_cases act with
        ⟨slots, rfl, hanswer, hnext⟩ | ⟨slots, htake, -⟩ | ⟨harrival, -, hsame⟩
      · rw [hanswer, hnext, arrival?, Option.toList_some, List.singleton_append, List.getLast?_cons]
        cases (stored (logged perform (box.perform (.store slots)).2 rest).1).getLast? <;> rfl
      · exact absurd htake hact
      · rw [harrival, hsame]
        rfl

/-- What is handed out was there before or has been stored, in this order. -/
theorem handed_sublist (box : Inbox size) (acts : List Act) :
    (handed (logged perform box acts).1).Sublist
      (box.slots?.toList ++ stored (logged perform box acts).1) := by
  induction acts generalizing box with
  | nil => exact List.nil_sublist _
  | cons act rest ih =>
      have hrest := ih (box.perform act).2
      rw [logged_cons, handed_cons, stored_cons]
      rcases box.perform_cases act with
        ⟨slots, rfl, hanswer, hnext⟩ | ⟨slots, rfl, hanswer, hbefore, hnext⟩ |
          ⟨harrival, hdeparture, hsame⟩
      · rw [hnext] at hrest
        rw [hanswer]
        exact hrest.trans (List.sublist_append_right _ _)
      · rw [hnext] at hrest
        rw [hanswer, hbefore]
        exact hrest.cons_cons slots
      · rw [harrival, hdeparture]
        rwa [hsame] at hrest ⊢

/-- What an inbox does next if the log has all that was done to it. -/
structure Serves (box : Inbox size) (log : Log) : Prop where
  stores : ∀ slots, slots.size ≤ size → (box.perform (.store slots)).1 = .stored
  /-- A universe that is too long changes nothing. -/
  refuses : ∀ slots, size < slots.size →
    box.perform (.store slots) = (.refused slots.size, box)
  hands : ∀ slots, (box.perform .take).1 = .taken (some slots) ↔ Waits slots log
  handsNone : (box.perform .take).1 = .taken none ↔ ¬ ∃ slots, Waits slots log
  tells : (box.perform .look).1 = .looked true ↔ ∃ slots, Waits slots log
  tellsNone : (box.perform .look).1 = .looked false ↔ ¬ ∃ slots, Waits slots log

theorem slots?_eq_some_iff_waits (acts : List Act) (slots : Array UInt8) :
    (logged perform (empty : Inbox size) acts).2.slots? = some slots ↔
      Waits slots (logged perform (empty : Inbox size) acts).1 := by
  rw [slots?_logged_iff]
  exact or_iff_left nofun

/-- Whatever was done to an inbox, it refuses what is too long and hands out what waits. -/
theorem serves (acts : List Act) :
    (logged perform (empty : Inbox size) acts).2.Serves
      (logged perform (empty : Inbox size) acts).1 := by
  have hwaits := @slots?_eq_some_iff_waits size acts
  generalize logged perform (empty : Inbox size) acts = past at hwaits ⊢
  obtain ⟨log, box⟩ := past
  have hnew : box.hasNew = true ↔ ∃ slots, Waits slots log := by
    rw [hasNew, ← Option.isSome_map, Option.isSome_iff_exists]
    exact exists_congr hwaits
  have htaken : ∀ w, (box.perform .take).1 = .taken w ↔ box.slots? = w := fun w =>
    ⟨fun h => Answer.taken.inj h, congrArg Answer.taken⟩
  have hlooked : ∀ b, (box.perform .look).1 = .looked b ↔ box.hasNew = b := fun b =>
    ⟨fun h => Answer.looked.inj h, congrArg Answer.looked⟩
  constructor
  case stores =>
    intro slots hfits
    rw [perform_store_of_le box hfits]
  case refuses => exact fun slots => perform_store_of_lt box
  case hands => exact fun slots => (htaken _).trans (hwaits slots)
  case handsNone =>
    rw [htaken, ← hnew, hasNew, Bool.not_eq_true, ← Option.isSome_map, Option.isSome_eq_false_iff,
      Option.isNone_iff_eq_none]
    rfl
  case tells => exact (hlooked true).trans hnew
  case tellsNone => rw [hlooked, ← hnew, Bool.not_eq_true]

end Inbox

/-- A place that keeps the last universe when it is taken, and knows that it is not new any more. -/
structure Shelf (size : Nat) where
  last : { slots : Array UInt8 // slots.size ≤ size }
  isNew : Bool

namespace Shelf

variable {size : Nat}

/-- Nothing has arrived. -/
def empty : Shelf size := ⟨⟨#[], Nat.zero_le size⟩, false⟩

/-- An act in place. -/
def perform (shelf : Shelf size) : Act → Answer × Shelf size
  | .store slots =>
      if h : slots.size ≤ size then (.stored, ⟨⟨slots, h⟩, true⟩)
      else (.refused slots.size, shelf)
  | .look => (.looked shelf.isNew, shelf)
  | .take =>
      if shelf.isNew then (.taken (some shelf.last.1), { shelf with isNew := false })
      else (.taken none, shelf)

/-- The inbox that the shelf looks like. -/
def inbox (shelf : Shelf size) : Inbox size :=
  ⟨if shelf.isNew then some shelf.last else none⟩

theorem perform_inbox (shelf : Shelf size) (act : Act) :
    shelf.inbox.perform act = ((shelf.perform act).1, (shelf.perform act).2.inbox) := by
  obtain ⟨last, isNew⟩ := shelf
  cases act with
  | store slots =>
      rcases Nat.lt_or_ge size slots.size with hlong | hfits
      · rw [Inbox.perform_store_of_lt _ hlong, perform, dif_neg (Nat.not_le.2 hlong)]
      · rw [Inbox.perform_store_of_le _ hfits, perform, dif_pos hfits]
        rfl
  | look => cases isNew <;> rfl
  | take => cases isNew <;> rfl

/-- A shelf and an inbox answer alike. -/
theorem logged_eq (acts : List Act) :
    (logged perform (empty : Shelf size) acts).1 =
      (logged Inbox.perform (Inbox.empty : Inbox size) acts).1 :=
  congrArg Prod.fst (logged_of_view perform_inbox empty acts).symm

end Shelf

end Dmx

end Luminaire
