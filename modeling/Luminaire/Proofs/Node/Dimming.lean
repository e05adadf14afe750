import Luminaire.Proofs.Message.Outcome
import Luminaire.Proofs.Node.Step

/-!
# Targets follow from base color and brightness

A channel that is set by messages is on its way to its base color, dimmed by its brightness. Base
color, brightness and target are set one at a time, and after most of the operations that do so
the three do not fit together. They fit again at the end of every command: all but one end by
dimming, and the one that shows a color puts it into base color and target alike, at full
brightness, which dims nothing.

The operations by themselves break this, and so does a universe, which knows of targets only.
`Session.SetByMessages` excludes both.
-/

namespace Luminaire

namespace Channel

/-- The target is the base color, dimmed by the brightness. -/
def Dimmed (c : Channel) : Prop := c.target = c.base.dim c.brightness

theorem dimmed_powerUp : powerUp.Dimmed := (Color.dim_full Color.black).symm

theorem dimmed_redim (c : Channel) : c.redim.Dimmed := rfl

theorem Dimmed.advance {c : Channel} (h : c.Dimmed) : c.advance.Dimmed := by
  rw [Channel.advance]
  split
  · exact h
  · exact h

end Channel

namespace Command

variable {n : Nat} {η : Type} [HueSource η]

/-- Whatever chance has for the channel. -/
theorem dimmed_touch (command : Command) (drawn : Color) {c : Channel} (h : c.Dimmed) :
    (command.touch drawn c).Dimmed := by
  cases command with
  | color _ shade => exact (Color.dim_full shade).symm
  | baseColor _ shade => exact Channel.dimmed_redim _
  | brightness _ value => exact Channel.dimmed_redim _
  | mode _ _ => exact h
  | switch _ _ => exact h
  | random _ => exact Channel.dimmed_redim { c with base := drawn }
  | strobe _ => exact h
  | unrecognized => exact h

end Command

namespace Board

variable {n : Nat} {η : Type} [HueSource η]

/-- Every channel of the board is dimmed. -/
def Dimmed (b : Board n) : Prop := ∀ i (h : i < n), b.channels[i].Dimmed

theorem dimmed_powerUp : (powerUp n).Dimmed := by
  intro i h
  rw [powerUp, Vector.getElem_replicate]
  exact Channel.dimmed_powerUp

theorem Dimmed.outcome {b : Board n} (h : b.Dimmed) (command : Command) (hues : η) :
    (command.outcome b hues).Dimmed := by
  intro i hi
  rw [Command.getElem_channels_outcome]
  split
  · exact command.dimmed_touch _ (h i hi)
  · exact h i hi

theorem Dimmed.advance {b : Board n} (h : b.Dimmed) : b.advance.Dimmed := by
  intro i hi
  rw [getElem_channels_advance]
  exact (h i hi).advance

theorem Dimmed.markPublished {b : Board n} (h : b.Dimmed) (j : Fin n) :
    (b.markPublished j).Dimmed := by
  intro i hi
  rw [getElem_channels_markPublished]
  split
  · exact h i hi
  · exact h i hi

theorem Dimmed.flush {b : Board n} (h : b.Dimmed) (o : Output n) : (o.flush b).2.1.Dimmed := by
  intro i hi
  obtain ⟨dirty, hchannel⟩ := o.getElem_channels_flush b i hi
  rw [hchannel]
  exact h i hi

theorem Dimmed.receive {b b' : Board n} {hues hues' : η} {root topic : String}
    {payload : ByteArray} {retained : Bool} {command : Command} (h : b.Dimmed)
    (hreceive : b.receive hues root topic payload retained = some (command, b', hues')) :
    b'.Dimmed := by
  rw [Board.receive] at hreceive
  split at hreceive
  next => cases hreceive
  next =>
    obtain ⟨⟨b₁, hues₁⟩, happly, heq⟩ := Option.map_eq_some_iff.1 hreceive
    obtain ⟨rfl, rfl, rfl⟩ := heq
    obtain ⟨rfl, _⟩ := Command.eq_outcome_of_apply happly
    exact h.outcome command hues

end Board

namespace Session

variable {n : Nat} {η θ τ : Type}

/-- The event does not operate on the board, and no universe is taken in it. -/
structure SetByMessages (s : Session n η) (e : Event θ τ) : Prop where
  message : ∀ op, e ≠ .operate op
  quiet : s.processes e → s.node.hasUniverse = false

theorem dimmed_receive [HueSource η] {s : Session n η} (h : s.node.board.Dimmed) (topic : String)
    (payload : ByteArray) (retained : Bool) :
    (s.node.receive topic payload retained).2.board.Dimmed := by
  rw [Node.receive]
  split
  next => exact h
  next command board hues hreceive => exact h.receive hreceive

theorem dimmed_process {s : Session n η} (h : s.node.board.Dimmed)
    (hquiet : s.node.hasUniverse = false) : s.process.node.board.Dimmed := by
  rw [board_process_of_quiet hquiet]
  exact h.advance

theorem dimmed_poll [Transport τ] {s : Session n η} (h : s.node.board.Dimmed) (now : Instant)
    (t : τ) : (s.poll now t).node.board.Dimmed := by
  rcases s.board_poll now t with hsame | ⟨i, _, htold⟩
  · rw [hsame]
    exact h
  · rw [htold]
    exact h.markPublished i

theorem dimmed_flush {s : Session n η} (h : s.node.board.Dimmed) : s.flush.node.board.Dimmed :=
  h.flush s.node.output

theorem dimmed_step [HueSource η] [HueSource θ] [Transport τ] {s s' : Session n η}
    {e : Event θ τ} (h : s.node.board.Dimmed) (hset : s.SetByMessages e)
    (hstep : s.step? e = some s') : s'.node.board.Dimmed :=
  step?_preserves (I := fun s : Session n η => s.node.board.Dimmed) (fun _ _ _ hs => hs)
    (fun topic payload retained hs => dimmed_receive hs topic payload retained)
    (fun op he => absurd he (hset.message op))
    (fun hprocesses hs => dimmed_process hs (hset.quiet hprocesses))
    (fun _ now t hs => dimmed_poll hs now t) (fun _ hs => dimmed_flush hs) (fun _ _ _ hs => hs) h
    hstep

/-- As long as the board is set by messages alone, every target is the base color, dimmed component
by component by the brightness. -/
theorem targets_dimmed [HueSource η] [HueSource θ] [Transport τ] (settings : Settings)
    (options : Options) (hues : η) (events : List (Event θ τ)) (s : Session n η)
    (hset : Along SetByMessages (powerUp n settings options hues) events)
    (hrun : (powerUp n settings options hues).run? events = some s) (i : Nat) (h : i < n) :
    s.node.board.channels[i].target =
      ⟨Component.dim s.node.board.channels[i].base.red s.node.board.channels[i].brightness,
        Component.dim s.node.board.channels[i].base.green s.node.board.channels[i].brightness,
        Component.dim s.node.board.channels[i].base.blue s.node.board.channels[i].brightness⟩ := by
  have hdimmed : s.node.board.Dimmed :=
    run?_invariant (fun _ _ _ hset h hstep => dimmed_step h hset hstep) hset
      Board.dimmed_powerUp hrun
  exact hdimmed i h

theorem targets_dimmed_half :
    ∃ s : Session 2 SplitMix,
      (powerUp 2 Settings.blank Options.standard ⟨0⟩).run?
        ([.receive "/set/2/bcolor" "ff8000".toUTF8 false,
          .receive "/set//bright" "128".toUTF8 false, .process, .poll ⟨0⟩ ⟨⟩, .flush] :
            List (Event SplitMix Steady)) = some s ∧
      s.node.board.channels[1].base = ⟨255, 128, 0⟩ ∧
      s.node.board.channels[1].target = ⟨128, 64, 0⟩ := by
  have hset : Along SetByMessages
      (powerUp 2 Settings.blank Options.standard (⟨0⟩ : SplitMix))
      ([.receive "/set/2/bcolor" "ff8000".toUTF8 false,
        .receive "/set//bright" "128".toUTF8 false, .process, .poll ⟨0⟩ ⟨⟩, .flush] :
          List (Event SplitMix Steady)) := by
    refine .cons ⟨nofun, False.elim⟩ rfl (.cons ⟨nofun, False.elim⟩ rfl ?_)
    refine .cons ⟨nofun, fun _ => rfl⟩ rfl ?_
    exact .cons ⟨nofun, False.elim⟩ rfl (.cons ⟨nofun, False.elim⟩ rfl trivial)
  refine ⟨_, rfl, by decide +kernel, ?_⟩
  refine (targets_dimmed Settings.blank Options.standard (⟨0⟩ : SplitMix) _ _ hset rfl 1
    (by decide)).trans ?_
  decide +kernel

end Session

end Luminaire
