import Luminaire.Proofs.Node.Announcement
import Luminaire.Proofs.Node.Settling
import Mathlib.Order.Interval.Finset.Fin

/-!
# How long a channel waits to be told

A poll that goes through tells the first channel that has something to tell. So a channel waits for
those before it, and for no others. The account is exact: a poll that does not tell channel `i` takes
one channel from those before `i` that have something to tell (`waitingBefore`), and nothing else
takes one from them. What adds to them is a command, a universe or a fade that gives one of them
something to tell again, and against that there is no remedy: if it happens before each poll,
channel `i` is never told.
-/

namespace Luminaire

theorem Channel.Announces.pending {c c' : Channel} (h : c.Announces c')
    (hc : c.pendingPublish = true) : c'.pendingPublish = true := by
  rcases h with hpending | ⟨hflag, _⟩
  · exact hpending
  · exact hflag.trans hc

namespace Board

variable {n : Nat}

/-- Whoever has something to tell in the first board has it in the second. -/
def Raises (b b' : Board n) : Prop :=
  ∀ i (h : i < n), b.channels[i].pendingPublish = true → b'.channels[i].pendingPublish = true

theorem Raises.refl (b : Board n) : b.Raises b := fun _ _ hi => hi

theorem Edited.raises {b b' : Board n} (h : b.Edited b') : b.Raises b' :=
  fun i hi => (h.channel i hi).announces.pending

/-- The channels before `i` that have something to tell. -/
def waitingBefore (b : Board n) (i : Fin n) : Finset (Fin n) :=
  {j | j < i ∧ (b.channels.get j).pendingPublish = true}

theorem mem_waitingBefore {b : Board n} {i j : Fin n} :
    j ∈ b.waitingBefore i ↔ j < i ∧ (b.channels.get j).pendingPublish = true := by
  simp [waitingBefore]

theorem card_waitingBefore_le (b : Board n) (i : Fin n) : (b.waitingBefore i).card ≤ i := by
  rw [← Fin.card_Iio i]
  exact Finset.card_le_card fun j hj => Finset.mem_Iio.2 (mem_waitingBefore.1 hj).1

theorem Raises.waitingBefore_subset {b b' : Board n} (h : b.Raises b') (i : Fin n) :
    b.waitingBefore i ⊆ b'.waitingBefore i := by
  intro j hj
  obtain ⟨hji, hpending⟩ := mem_waitingBefore.1 hj
  exact mem_waitingBefore.2 ⟨hji, h j j.isLt hpending⟩

theorem waitingBefore_congr {b b' : Board n}
    (h : ∀ i (hi : i < n), b'.channels[i].pendingPublish = b.channels[i].pendingPublish)
    (i : Fin n) : b'.waitingBefore i = b.waitingBefore i := by
  ext j
  have hj : (b'.channels.get j).pendingPublish = (b.channels.get j).pendingPublish := h j j.isLt
  rw [mem_waitingBefore, mem_waitingBefore, hj]

/-- A channel that has something to tell is preceded by no more than the first such channel. -/
theorem exists_firstPending? {b : Board n} {i : Fin n}
    (h : (b.channels.get i).pendingPublish = true) : ∃ j, b.firstPending? = some j ∧ j ≤ i := by
  cases hfirst : b.firstPending? with
  | none =>
      have hidle := (firstPending?_eq_none_iff b).1 hfirst i i.isLt
      exact absurd (hidle.symm.trans h) (by decide)
  | some j =>
      refine ⟨j, rfl, Nat.le_of_not_lt fun hij => ?_⟩
      exact absurd ((pendingPublish_before_firstPending? hfirst hij).symm.trans h) (by decide)

theorem markFirst_of_first {b : Board n} {j : Fin n} (h : b.firstPending? = some j) :
    b.markFirst = b.markPublished j := by
  rw [markFirst, h]

/-- Telling a channel takes it, and no other, from those that are waiting. -/
theorem waitingBefore_markPublished (b : Board n) (i j : Fin n) :
    (b.markPublished j).waitingBefore i = (b.waitingBefore i).erase j := by
  ext k
  have hmarked : (b.markPublished j).channels.get k = if (j : Nat) = k then
      { b.channels.get k with pendingPublish := false } else b.channels.get k :=
    getElem_channels_markPublished b j k k.isLt
  rw [Finset.mem_erase, mem_waitingBefore, mem_waitingBefore, hmarked]
  by_cases hjk : j = k
  · simp [hjk]
  · simp [Ne.symm hjk, Fin.val_ne_of_ne hjk]

end Board

namespace Node

variable {n : Nat} {η : Type}

theorem raises_process (node : Node n η) : node.board.Raises node.process.2.board := by
  intro i hi hpending
  rw [board_process, Board.getElem_channels_advance]
  refine (Channel.announces_advance _).pending ?_
  rcases node.board_readDmx with hsame | ⟨slots, _, _, happlied⟩
  · rw [hsame]
    exact hpending
  · rw [happlied, Dmx.Patch.getElem_channels_apply]
    exact hpending

end Node

namespace Session

variable {n : Nat} {η θ τ : Type} [Transport τ]

theorem raises_lit (s : Session n η) (now : Instant) : s.node.board.Raises (s.lit now).node.board := by
  rw [lit]
  split
  · exact Board.Raises.refl s.node.board
  · exact s.node.raises_process

/-- The poll in an event: the session in which it is made, its time and its transport. -/
def poll? (s : Session n η) : Event θ τ → Option (Session n η × Instant × τ)
  | .poll now t => some (s, now, t)
  | .tick now t => if now < s.pacer.poll.next then none else some (s.lit now, now, t)
  | _ => none

/-- The channel that is told in an event. -/
def told? (s : Session n η) (e : Event θ τ) : Option (Fin n) :=
  (s.poll? e).bind fun (polled, now, t) =>
    (polled.node.poll now (⟨t, polled.calls⟩ : Recorded τ)).published

variable [HueSource η] [HueSource θ]

/-- The session as the poll in an event finds it, or after an event without a poll. -/
def ready (s : Session n η) (e : Event θ τ) : Session n η :=
  match s.poll? e with
  | some (polled, _, _) => polled
  | none => (s.step? e).getD s

/-- The number of channels before `i` that an event gives something to tell. -/
def raised (i : Fin n) (s : Session n η) (e : Event θ τ) : Nat :=
  ((s.ready e).node.board.waitingBefore i \ s.node.board.waitingBefore i).card

/-- An event that does not poll takes no flag away. -/
theorem raises_step? {s s' : Session n η} {e : Event θ τ} (hpoll : s.poll? e = none)
    (h : s.step? e = some s') : s.node.board.Raises s'.node.board := by
  cases e with
  | process =>
      obtain rfl := Option.some.inj h
      exact s.node.raises_process
  | poll now t => cases hpoll
  | flush =>
      obtain rfl := Option.some.inj h
      exact fun i hi hpending => (s.pendingPublish_flush i hi).trans hpending
  | tick now t =>
      obtain ⟨process, poll, rfl⟩ := eq_paced_of_tick? h
      rw [poll?] at hpoll
      split at hpoll
      next hearly =>
        rw [if_pos hearly]
        exact fun i hi hpending =>
          ((s.lit now).pendingPublish_flush i hi).trans (s.raises_lit now i hi hpending)
      next => cases hpoll
  | _ => exact (edited_step? rfl h).board.raises

/-- What an event with a poll does to the flags, it does before the poll or by it. -/
theorem step?_of_poll? {s s' polled : Session n η} {e : Event θ τ} {now : Instant} {t : τ}
    (hpoll : s.poll? e = some (polled, now, t)) (h : s.step? e = some s') :
    (e = .poll now t ∨ e = .tick now t) ∧ s.node.board.Raises polled.node.board ∧
      ∀ i (hi : i < n), s'.node.board.channels[i].pendingPublish =
        (polled.poll now t).node.board.channels[i].pendingPublish := by
  cases e with
  | poll now' t' =>
      obtain ⟨rfl, rfl, rfl⟩ : s = polled ∧ now' = now ∧ t' = t := by simpa [poll?] using hpoll
      obtain rfl := Option.some.inj h
      exact ⟨Or.inl rfl, Board.Raises.refl s.node.board, fun _ _ => rfl⟩
  | tick now' t' =>
      obtain ⟨process, poll, rfl⟩ := eq_paced_of_tick? h
      rw [poll?] at hpoll
      split at hpoll
      next => cases hpoll
      next hdue =>
        obtain ⟨rfl, rfl, rfl⟩ : s.lit now' = polled ∧ now' = now ∧ t' = t := by
          simpa using hpoll
        rw [if_neg hdue]
        exact ⟨Or.inr rfl, s.raises_lit now', ((s.lit now').poll now' t').pendingPublish_flush⟩
  | _ => cases hpoll

/-- One line of the account: while channel `i` is not told, it goes on waiting, and who is before it
changes by those that are given something to tell and by the one that is told. -/
theorem account_step? {s s' : Session n η} {e : Event θ τ} (hn : n < UInt64.size)
    (hreliable : ∀ now t, e = .poll now t ∨ e = .tick now t → Transport.Reliable t)
    (h : s.step? e = some s') {i : Fin n}
    (hi : (s.node.board.channels.get i).pendingPublish = true) :
    s.told? e = some i ∨ (s'.node.board.channels.get i).pendingPublish = true ∧
      (if (s.poll? e).isSome then 1 else 0) + (s'.node.board.waitingBefore i).card =
        (s.node.board.waitingBefore i).card + s.raised i e := by
  match hpoll : s.poll? e with
  | none =>
      have hraises := raises_step? hpoll h
      have hready : s.ready e = s' := by
        rw [ready, hpoll, h]
        rfl
      have hcard := Finset.card_sdiff_add_card_eq_card (hraises.waitingBefore_subset i)
      refine Or.inr ⟨hraises i i.isLt hi, ?_⟩
      rw [raised, hready, ← hcard]
      simp [Nat.add_comm]
  | some (polled, now, t) =>
      obtain ⟨hevent, hraises, hflags⟩ := step?_of_poll? hpoll h
      have hready : s.ready e = polled := by
        rw [ready, hpoll]
      have hcard := Finset.card_sdiff_add_card_eq_card (hraises.waitingBefore_subset i)
      obtain ⟨_, htold, hboard⟩ := polled.poll_of_reliable hn now (hreliable now t hevent)
      obtain ⟨j, hj, hji⟩ := Board.exists_firstPending? (hraises i i.isLt hi)
      have htold' : s.told? e = some j := by
        rw [told?, hpoll]
        exact htold.trans hj
      by_cases heq : j = i
      · subst heq
        exact Or.inl htold'
      · refine Or.inr ⟨?_, ?_⟩
        · refine (hflags i i.isLt).trans ?_
          rw [hboard, Board.markFirst_of_first hj, Board.getElem_channels_markPublished,
            if_neg (Fin.val_ne_of_ne heq)]
          exact hraises i i.isLt hi
        · have hwaiting : j ∈ polled.node.board.waitingBefore i :=
            Board.mem_waitingBefore.2 ⟨lt_of_le_of_ne hji heq,
              Board.pendingPublish_of_firstPending? hj⟩
          have herase := Finset.card_erase_add_one hwaiting
          rw [Board.waitingBefore_congr hflags, hboard, Board.markFirst_of_first hj,
            Board.waitingBefore_markPublished, raised, hready]
          simp only [Option.isSome_some, if_true]
          omega

/-- The events of a run, each with the session in which it comes. -/
def stops (s : Session n η) : List (Event θ τ) → List (Session n η × Event θ τ)
  | [] => []
  | e :: rest => (s, e) :: ((s.step? e).elim [] fun s => s.stops rest)

/-- The number of polls in a run. -/
def pollCount (s : Session n η) (events : List (Event θ τ)) : Nat :=
  (s.stops events).countP fun p => (p.1.poll? p.2).isSome

/-- How often a channel before `i` is given something to tell in a run. -/
def raisedCount (i : Fin n) (s : Session n η) (events : List (Event θ τ)) : Nat :=
  ((s.stops events).map fun p => p.1.raised i p.2).sum

/-- The channel is told in a run. -/
def Tells (s : Session n η) (events : List (Event θ τ)) (i : Fin n) : Prop :=
  ∃ p ∈ s.stops events, p.1.told? p.2 = some i

theorem stops_cons {s s' : Session n η} {e : Event θ τ} (h : s.step? e = some s')
    (rest : List (Event θ τ)) : s.stops (e :: rest) = (s, e) :: s'.stops rest := by
  rw [stops, h, Option.elim_some]

/-- The account of a run. -/
theorem account_run? {s s' : Session n η} {events : List (Event θ τ)} (hn : n < UInt64.size)
    (hreliable : ∀ now t, .poll now t ∈ events ∨ .tick now t ∈ events → Transport.Reliable t)
    (h : s.run? events = some s') {i : Fin n}
    (hi : (s.node.board.channels.get i).pendingPublish = true) :
    s.Tells events i ∨ (s'.node.board.channels.get i).pendingPublish = true ∧
      s.pollCount events + (s'.node.board.waitingBefore i).card =
        (s.node.board.waitingBefore i).card + raisedCount i s events := by
  induction events generalizing s with
  | nil =>
      obtain rfl := Option.some.inj h
      exact Or.inr ⟨hi, Nat.add_comm _ _⟩
  | cons e rest ih =>
      obtain ⟨s₁, hfirst, hrest⟩ := Option.bind_eq_some_iff.1 h
      have hfits : ∀ now t, e = .poll now t ∨ e = .tick now t → Transport.Reliable t := by
        rintro now t (rfl | rfl)
        · exact hreliable now t (Or.inl List.mem_cons_self)
        · exact hreliable now t (Or.inr List.mem_cons_self)
      rcases account_step? hn hfits hfirst hi with htold | ⟨hi₁, hcount⟩
      · refine Or.inl ⟨(s, e), ?_, htold⟩
        rw [stops_cons hfirst]
        exact List.mem_cons_self
      · have hrun := ih (fun now t he => hreliable now t
          (he.imp (List.mem_cons_of_mem e) (List.mem_cons_of_mem e))) hrest hi₁
        rcases hrun with ⟨p, hp, htold⟩ | ⟨hi', hcounts⟩
        · refine Or.inl ⟨p, ?_, htold⟩
          rw [stops_cons hfirst]
          exact List.mem_cons_of_mem _ hp
        · refine Or.inr ⟨hi', ?_⟩
          simp only [pollCount, raisedCount, stops_cons hfirst, List.countP_cons, List.map_cons,
            List.sum_cons] at hcounts ⊢
          omega

/-- A channel is told as soon as there have been more polls than channels before it had something to
tell at first or were given something to tell meanwhile. There are at most `i` at first, so if none
is given something to tell meanwhile, `i + 1` polls are enough. -/
theorem told_after_enough_polls {s s' : Session n η} {events : List (Event θ τ)}
    (hn : n < UInt64.size)
    (hreliable : ∀ now t, .poll now t ∈ events ∨ .tick now t ∈ events → Transport.Reliable t)
    (hrun : s.run? events = some s') (i : Fin n)
    (hi : (s.node.board.channels.get i).pendingPublish = true) :
    (s.node.board.waitingBefore i).card ≤ i ∧
      ((s.node.board.waitingBefore i).card + raisedCount i s events < s.pollCount events →
        s.Tells events i) := by
  refine ⟨s.node.board.card_waitingBefore_le i, fun hpolls => ?_⟩
  rcases account_run? hn hreliable hrun hi with htold | ⟨_, hcount⟩
  · exact htold
  · omega

theorem told_after_enough_polls_second :
    ∃ s : Session 2 SplitMix,
      (powerUp 2 Settings.blank Options.standard ⟨0⟩).run?
        [.receive "/set/1/switch" "1".toUTF8 false, .receive "/set/2/switch" "1".toUTF8 false,
          (.process : Event SplitMix Steady)] = some s ∧
      s.Tells [.poll Instant.zero Steady.mk, (.poll Instant.zero Steady.mk : Event SplitMix Steady)]
        1 := by
  refine ⟨_, rfl, ?_⟩
  refine (told_after_enough_polls (by decide) (fun _ t _ => Transport.reliable_steady t) rfl 1
    (by decide +kernel)).2 (by decide +kernel)

/-- Over and over, the first of two channels is switched on by a message, and then there is a
poll. -/
def chatter : Nat → List (Event SplitMix Steady)
  | 0 => []
  | k + 1 => .receive "/set/1/switch" "1".toUTF8 false :: .poll Instant.zero ⟨⟩ :: chatter k

/-- Both channels are on. The second has something to tell, and the first has if `first` says so. -/
structure Behind (first : Bool) (s : Session 2 SplitMix) : Prop where
  board : s.node.board =
    ⟨#v[{ Channel.powerUp with status := .on, pendingPublish := first },
      { Channel.powerUp with status := .on, pendingPublish := true }], 0, true⟩
  settings : s.node.settings = Settings.blank
  hues : s.node.hues = ⟨0⟩

theorem Behind.receive {s : Session 2 SplitMix} (h : s.Behind false) :
    (s.withNode (s.node.receive "/set/1/switch" "1".toUTF8 false).2).Behind true := by
  have hreceive : s.node.board.receive s.node.hues s.node.root "/set/1/switch" "1".toUTF8 false =
      some (.switch (.channel 0) .on,
        ⟨#v[{ Channel.powerUp with status := .on, pendingPublish := true },
          { Channel.powerUp with status := .on, pendingPublish := true }], 0, true⟩, ⟨0⟩) := by
    rw [Node.root, h.board, h.settings, h.hues]
    decide +kernel
  rw [Node.receive, hreceive]
  exact ⟨rfl, h.settings, rfl⟩

theorem Behind.poll {s : Session 2 SplitMix} (h : s.Behind true) (now : Instant) (t : Steady) :
    s.told? (.poll now t : Event SplitMix Steady) = some 0 ∧ (s.poll now t).Behind false := by
  obtain ⟨_, htold, hboard⟩ := s.poll_of_reliable (by decide) now (Transport.reliable_steady t)
  rw [h.board] at htold hboard
  exact ⟨htold.trans (by decide +kernel), hboard.trans (by decide +kernel), h.settings, h.hues⟩

/-- A message for the first channel puts it before the second again. -/
theorem Behind.chatter {s : Session 2 SplitMix} (h : s.Behind false) (k : Nat) :
    ∃ s' : Session 2 SplitMix, s.run? (chatter k) = some s' ∧ s.pollCount (chatter k) = k ∧
      ¬ s.Tells (chatter k) 1 := by
  induction k generalizing s with
  | zero => exact ⟨s, rfl, rfl, fun ⟨_, hmem, _⟩ => nomatch hmem⟩
  | succ k ih =>
      obtain ⟨htold, hbehind⟩ := h.receive.poll Instant.zero ⟨⟩
      obtain ⟨s', hrun, hpolls, huntold⟩ := ih hbehind
      have hstops : s.stops (Session.chatter (k + 1)) = (s, _) :: (_, _) :: _ :=
        (stops_cons rfl _).trans (congrArg (List.cons _) (stops_cons rfl _))
      refine ⟨s', hrun, ?_, ?_⟩
      · rw [pollCount, hstops, List.countP_cons_of_neg (by simp [poll?]),
          List.countP_cons_of_pos rfl]
        exact congrArg (· + 1) hpolls
      · rintro ⟨p, hmem, hp⟩
        rw [hstops] at hmem
        rcases List.mem_cons.1 hmem with rfl | hmem
        · cases hp
        · rcases List.mem_cons.1 hmem with rfl | hmem
          · exact absurd (htold.symm.trans hp) (by decide)
          · exact huntold ⟨p, hmem, hp⟩

/-- No number of polls is enough for the second of two channels, if the first is given something to
tell before each of them. -/
theorem polls_starve :
    ¬ ∃ bound : Nat, ∀ (past rest : List (Event SplitMix Steady)) (s s' : Session 2 SplitMix),
      (powerUp 2 Settings.blank Options.standard ⟨0⟩).run? past = some s →
      (s.node.board.channels.get 1).pendingPublish = true → s.run? rest = some s' →
      bound ≤ s.pollCount rest → s.Tells rest 1 := by
  rintro ⟨bound, htold⟩
  have hbehind : ∃ s : Session 2 SplitMix,
      (powerUp 2 Settings.blank Options.standard ⟨0⟩).run?
        [.receive "/set/1/switch" "1".toUTF8 false, .receive "/set/2/switch" "1".toUTF8 false,
          (.poll Instant.zero ⟨⟩ : Event SplitMix Steady)] = some s ∧ s.Behind false :=
    ⟨_, rfl, by decide +kernel, rfl, rfl⟩
  obtain ⟨s, hpast, hs⟩ := hbehind
  obtain ⟨s', hrun, hpolls, huntold⟩ := hs.chatter bound
  refine huntold (htold _ _ s s' hpast ?_ hrun (Nat.le_of_eq hpolls.symm))
  rw [hs.board]
  rfl

end Session

end Luminaire
