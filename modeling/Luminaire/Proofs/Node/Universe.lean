import Luminaire.Proofs.Node.Step

/-!
# What a universe leaves untold

A universe sets the target and the mode of every channel and raises no flag. The step of the lamps
that follows makes up for it as far as it moves the shown color. So everything hangs on whether
the color in the universe is the one that is shown already: then the channel stands still, and a
new mode goes untold, unless the channel was pending for another reason.
-/

namespace Luminaire

namespace Channel

/-- The channel as a universe sets it. -/
def patched (c : Channel) (color : Color) (mode : FadeMode) : Channel :=
  { c with mode := mode, target := color }

theorem advance_patched_of_ne {c : Channel} {color : Color} (mode : FadeMode)
    (h : color ≠ c.current) : (c.patched color mode).advance.pendingPublish = true := by
  have hmoves : (c.patched color mode).isConverging = true :=
    (isConverging_iff _).2 (Ne.symm h)
  rw [advance_of_converging hmoves]

theorem advance_patched_current (c : Channel) (mode : FadeMode) :
    (c.patched c.current mode).advance =
      { c with mode := mode, target := c.current, dirty := false } := by
  have hstays : (c.patched c.current mode).isConverging = false := by
    rw [isConverging, patched, bne_self_eq_false]
  rw [advance_of_arrived hstays]
  rfl

theorem portrait_with_mode (c : Channel) (mode : FadeMode) :
    { c.portrait with mode := mode } = c.portrait ↔ mode = c.mode := by
  refine ⟨congrArg Portrait.mode, ?_⟩
  rintro rfl
  rfl

/-- A universe and a tick announce what they change, unless all they change is the mode. -/
theorem announces_patched_iff (c : Channel) (color : Color) (mode : FadeMode) :
    ((c.patched color mode).advance.portrait ≠ c.portrait →
        (c.patched color mode).advance.pendingPublish = true) ↔
      ¬ (color = c.current ∧ mode ≠ c.mode ∧ c.pendingPublish = false) := by
  by_cases hcolor : color = c.current
  · subst hcolor
    have hportrait : (c.patched c.current mode).advance.portrait =
        { c.portrait with mode := mode } := by
      rw [advance_patched_current]
      rfl
    have hpending : (c.patched c.current mode).advance.pendingPublish = c.pendingPublish := by
      rw [advance_patched_current]
    rw [hportrait, hpending, Ne, portrait_with_mode]
    cases c.pendingPublish <;> simp
  · refine iff_of_true (fun _ => advance_patched_of_ne mode hcolor) ?_
    rintro ⟨hsame, _⟩
    exact hcolor hsame

end Channel

namespace Node

variable {n : Nat} {η : Type}

theorem board_readDmx_of_waiting {node : Node n η} {slots : Array UInt8}
    (hdmx : node.options.dmx = true) (hwaiting : node.inbox.take.1 = some slots) :
    node.readDmx.board = node.patch.apply slots node.board := by
  rw [readDmx, if_pos hdmx]
  split
  next inbox htake =>
    rw [htake] at hwaiting
    cases hwaiting
  next slots' inbox htake =>
    rw [htake] at hwaiting
    obtain rfl := Option.some.inj hwaiting
    rfl

/-- A step of the lamps that takes a universe leaves a channel pending whose portrait it changes,
with one exception: the universe has the color that is shown already and another mode, and the
channel was not pending before. -/
theorem process_announces_iff (node : Node n η) (slots : Array UInt8)
    (hdmx : node.options.dmx = true) (hwaiting : node.inbox.take.1 = some slots) (i : Nat)
    (h : i < n) :
    (node.process.2.board.channels[i].portrait ≠ node.board.channels[i].portrait →
        node.process.2.board.channels[i].pendingPublish = true) ↔
      ¬ (node.patch.color slots i = node.board.channels[i].current ∧
        node.patch.mode slots i n ≠ node.board.channels[i].mode ∧
        node.board.channels[i].pendingPublish = false) := by
  have hchannel : node.process.2.board.channels[i] =
      (node.board.channels[i].patched (node.patch.color slots i)
        (node.patch.mode slots i n)).advance := by
    rw [board_process, Board.getElem_channels_advance, board_readDmx_of_waiting hdmx hwaiting,
      Dmx.Patch.getElem_channels_apply, Channel.patched]
  rw [hchannel]
  exact Channel.announces_patched_iff _ _ _

theorem process_announces_iff_blue :
    ∃ node : Node 1 SplitMix,
      (powerUp 1 Settings.blank { Options.standard with dmx := true } ⟨0⟩).storeUniverse
        #[0, 0, 9, 1] = .ok node ∧
      ∀ i (h : i < 1), node.process.2.board.channels[i].pendingPublish = true := by
  refine ⟨_, rfl, fun i h => ?_⟩
  obtain rfl := Nat.lt_one_iff.1 h
  refine (process_announces_iff _ #[0, 0, 9, 1] rfl rfl 0 (by decide)).2 ?_ ?_
  · rintro ⟨hcolor, _⟩
    exact absurd hcolor (by decide +kernel)
  · decide +kernel

end Node

namespace Session

/-- A universe that only switches a black channel to fading is read in silence. -/
theorem universe_untold :
    ¬ ∀ (events : List (Event SplitMix Steady)) (s : Session 1 SplitMix),
      (powerUp 1 Settings.blank { Options.standard with dmx := true } ⟨0⟩).run? events = some s →
      s.node.inbox.hasNew = true → ∀ i (h : i < 1),
      s.process.node.board.channels[i].portrait ≠ s.node.board.channels[i].portrait →
      s.process.node.board.channels[i].pendingPublish = true := by
  intro hall
  have hpending := hall [.storeUniverse #[0, 0, 0, 1]] _ rfl rfl 0 (by decide) (by decide +kernel)
  exact absurd hpending (by decide +kernel)

end Session

end Luminaire
