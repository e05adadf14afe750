import Luminaire.Proofs.Board.Fading
import Luminaire.Proofs.Node.Step

/-!
# A node that is left alone

A node that nothing reaches from outside takes three kinds of steps, for the lamps, the broker and
the outputs. None of them can fail, so they are written as the function `Session.step` here, which
leaves a session alone at any other event. Unless a universe is still waiting, the steps touch only
the shown colors and the flags of channels: what is set stays set (`keeps_steps`). A step that is
not for the lamps touches flags only (`reflagged_step`).
-/

namespace Luminaire

namespace Event

variable {θ τ : Type}

def isProcess : Event θ τ → Bool
  | process => true
  | _ => false

theorem eq_process {e : Event θ τ} (h : e.isProcess = true) : e = process := by
  cases e with
  | process => rfl
  | _ => cases h

def isPoll : Event θ τ → Bool
  | poll _ _ => true
  | _ => false

theorem eq_poll {e : Event θ τ} (h : e.isPoll = true) : ∃ now t, e = poll now t := by
  cases e with
  | poll now t => exact ⟨now, t, rfl⟩
  | _ => cases h

/-- The event is a step of the lamps, of the broker or of the outputs. -/
def isStep : Event θ τ → Bool
  | process => true
  | poll _ _ => true
  | flush => true
  | _ => false

end Event

namespace Channel

/-- The two differ in their flags at most. -/
def Reflagged (c c' : Channel) : Prop :=
  c' = { c with dirty := c'.dirty, pendingPublish := c'.pendingPublish }

theorem Reflagged.refl (c : Channel) : c.Reflagged c := rfl

theorem Reflagged.goal {c c' : Channel} (h : c.Reflagged c') : c'.goal = c.goal := by
  rw [h]
  rfl

theorem Reflagged.remainingTicks {c c' : Channel} (h : c.Reflagged c') :
    c'.remainingTicks = c.remainingTicks := by
  rw [h]
  rfl

end Channel

namespace Board

variable {n : Nat}

/-- The two differ in their flags at most. -/
structure Reflagged (b b' : Board n) : Prop where
  channel : ∀ i (h : i < n), b.channels[i].Reflagged b'.channels[i]
  strobe : b'.strobe = b.strobe

theorem Reflagged.refl (b : Board n) : b.Reflagged b :=
  ⟨fun i h => Channel.Reflagged.refl b.channels[i], rfl⟩

theorem reflagged_markPublished (b : Board n) (j : Fin n) : b.Reflagged (b.markPublished j) := by
  refine ⟨fun i h => ?_, rfl⟩
  rw [getElem_channels_markPublished]
  split <;> rfl

theorem reflagged_flush (o : Output n) (b : Board n) : b.Reflagged (o.flush b).2.1 := by
  refine ⟨fun i h => ?_, ?_⟩
  · obtain ⟨dirty, hchannel⟩ := o.getElem_channels_flush b i h
    rw [hchannel]
    rfl
  · rw [Output.flush]
    split <;> rfl

theorem reflagged_advance {b : Board n} (h : b.isConverging = false) : b.Reflagged b.advance := by
  refine ⟨fun i hi => ?_, rfl⟩
  rw [getElem_channels_advance_of_arrived h i hi]
  rfl

theorem Reflagged.isConverging {b b' : Board n} (h : b.Reflagged b')
    (harrived : b.isConverging = false) : b'.isConverging = false := by
  rw [isConverging_eq_false_iff] at harrived ⊢
  intro i hi
  rw [← Channel.toNat_remainingTicks_eq_zero_iff, (h.channel i hi).remainingTicks]
  exact (Channel.toNat_remainingTicks_eq_zero_iff _).2 (harrived i hi)

end Board

namespace Node

variable {n : Nat} {η : Type}

/-- A step of the lamps leaves no universe behind that the next one would take. -/
theorem process_eq (node : Node n η) :
    ∃ inbox strobe, (node.options.dmx && inbox.hasNew) = false ∧
      node.process.2 =
        { node with inbox := inbox, strobe := strobe, board := node.readDmx.board.advance } := by
  obtain ⟨strobe, hstrobe⟩ := node.readDmx.advance.tickStrobe_eq
  have hread : ∃ inbox, (node.options.dmx && inbox.hasNew) = false ∧
      node.readDmx = { node with inbox := inbox, board := node.readDmx.board } := by
    rw [readDmx]
    split
    next hdmx =>
      split
      next inbox htake =>
        obtain ⟨_, rfl⟩ := Prod.mk.inj htake
        exact ⟨_, Bool.and_false _, rfl⟩
      next slots inbox htake =>
        obtain ⟨_, rfl⟩ := Prod.mk.inj htake
        exact ⟨_, Bool.and_false _, rfl⟩
    next hdmx =>
      refine ⟨node.inbox, ?_, rfl⟩
      rw [Bool.eq_false_iff.2 hdmx, Bool.false_and]
  obtain ⟨inbox, hinbox, hnode⟩ := hread
  refine ⟨inbox, strobe, hinbox, ?_⟩
  rw [process, hstrobe, advance, hnode]

end Node

namespace Session

variable {n : Nat} {η θ τ : Type} [Transport τ]

/-- The session after a step. -/
def step (s : Session n η) : Event θ τ → Session n η
  | .process => s.process
  | .poll now t => s.poll now t
  | .flush => s.flush
  | _ => s

/-- The session after some steps, the first one first. -/
def steps (s : Session n η) (events : List (Event θ τ)) : Session n η := events.foldl step s

@[simp] theorem steps_nil (s : Session n η) : s.steps ([] : List (Event θ τ)) = s := rfl

theorem steps_cons (s : Session n η) (e : Event θ τ) (rest : List (Event θ τ)) :
    s.steps (e :: rest) = (s.step e).steps rest := rfl

theorem run?_of_isStep [HueSource η] [HueSource θ] {events : List (Event θ τ)}
    (h : ∀ e ∈ events, e.isStep = true) (s : Session n η) :
    s.run? events = some (s.steps events) := by
  induction events generalizing s with
  | nil => rfl
  | cons e rest ih =>
      obtain ⟨he, hrest⟩ := List.forall_mem_cons.1 h
      have hstep : s.step? e = some (s.step e) := by
        cases e with
        | process => rfl
        | poll now t => rfl
        | flush => rfl
        | _ => cases he
      rw [run?_cons, hstep, Option.bind_some, steps_cons]
      exact ih hrest (s.step e)

theorem steps_invariant {I : Session n η → Prop} (hprocess : ∀ s, I s → I s.process)
    (hpoll : ∀ s (now : Instant) (t : τ), I s → I (s.poll now t)) (hflush : ∀ s, I s → I s.flush)
    {s : Session n η} (hs : I s) (events : List (Event θ τ)) : I (s.steps events) := by
  induction events generalizing s with
  | nil => exact hs
  | cons e rest ih =>
      refine ih ?_
      cases e with
      | process => exact hprocess s hs
      | poll now t => exact hpoll s now t hs
      | flush => exact hflush s hs
      | _ => exact hs

theorem steps_append (s : Session n η) (first second : List (Event θ τ)) :
    s.steps (first ++ second) = (s.steps first).steps second := List.foldl_append

theorem hasUniverse_process (s : Session n η) : s.process.node.hasUniverse = false := by
  obtain ⟨inbox, strobe, hinbox, hnode⟩ := s.node.process_eq
  show s.node.process.2.hasUniverse = false
  rw [hnode]
  exact hinbox

theorem publisher_process (s : Session n η) : s.process.node.publisher = s.node.publisher := by
  obtain ⟨inbox, strobe, _, hnode⟩ := s.node.process_eq
  show s.node.process.2.publisher = _
  rw [hnode]

theorem plan_process (s : Session n η) : s.process.node.plan = s.node.plan := by
  obtain ⟨inbox, strobe, _, hnode⟩ := s.node.process_eq
  show s.node.process.2.plan = _
  rw [hnode]

theorem reflagged_flush (s : Session n η) : s.node.board.Reflagged s.flush.node.board :=
  Board.reflagged_flush s.node.output s.node.board

theorem reflagged_poll (s : Session n η) (now : Instant) (t : τ) :
    s.node.board.Reflagged (s.poll now t).node.board := by
  rcases s.board_poll now t with hsame | ⟨i, _, htold⟩
  · rw [hsame]
    exact Board.Reflagged.refl s.node.board
  · rw [htold]
    exact Board.reflagged_markPublished s.node.board i

theorem reflagged_step (s : Session n η) (e : Event θ τ) (h : e.isProcess = false) :
    s.node.board.Reflagged (s.step e).node.board := by
  cases e with
  | process => cases h
  | poll now t => exact s.reflagged_poll now t
  | flush => exact s.reflagged_flush
  | _ => exact Board.Reflagged.refl s.node.board

theorem changed_poll (s : Session n η) (now : Instant) (t : τ) :
    (s.poll now t).node.board.changed = s.node.board.changed := by
  rcases s.board_poll now t with hsame | ⟨i, _, htold⟩
  · rw [hsame]
  · rw [htold]
    rfl

/-- What is set on the board of `s` is still set, and nothing is about to change it. -/
structure Keeps (s s' : Session n η) : Prop where
  quiet : s'.node.hasUniverse = false
  goal : ∀ i (h : i < n), s'.node.board.channels[i].goal = s.node.board.channels[i].goal
  strobe : s'.node.board.strobe = s.node.board.strobe

theorem Keeps.of_reflagged {s s₁ s₂ : Session n η} (h : s.Keeps s₁)
    (hboard : s₁.node.board.Reflagged s₂.node.board) (hquiet : s₂.node.hasUniverse = false) :
    s.Keeps s₂ :=
  ⟨hquiet, fun i hi => (hboard.channel i hi).goal.trans (h.goal i hi),
    hboard.strobe.trans h.strobe⟩

theorem Keeps.process {s s₁ : Session n η} (h : s.Keeps s₁) : s.Keeps s₁.process := by
  have hboard := board_process_of_quiet h.quiet
  refine ⟨s₁.hasUniverse_process, fun i hi => ?_, ?_⟩
  · rw [← h.goal i hi, hboard, Board.getElem_channels_advance, Channel.goal_advance]
  · rw [hboard]
    exact h.strobe

theorem keeps_steps {s : Session n η} (h : s.node.hasUniverse = false)
    (events : List (Event θ τ)) : s.Keeps (s.steps events) :=
  steps_invariant (fun _ hs => hs.process)
    (fun s₁ now t hs => hs.of_reflagged (s₁.reflagged_poll now t) hs.quiet)
    (fun s₁ hs => hs.of_reflagged s₁.reflagged_flush hs.quiet) ⟨h, fun _ _ => rfl, rfl⟩ events

end Session

end Luminaire
