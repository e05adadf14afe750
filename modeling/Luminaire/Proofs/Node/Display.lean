import Luminaire.Proofs.Node.Step

/-!
# The lamps show the board

Writing the outputs is skipped while the board is not marked as changed, so the lamps show the
board only if no step alters a duty without leaving a mark. `Board.Signals` says this of one step.
It is stated from the end: a step that leaves no mark has found none, and has altered no duty. So
an old mark covers a later change as well as its own, and several steps between two writings need
no more than one step does.
-/

namespace Luminaire

namespace Board

variable {n : Nat}

/-- Where the step leaves the board unmarked, it was unmarked before and shows the same, and the
step made no channel dirty. -/
def Signals (b b' : Board n) : Prop :=
  b'.changed = false → b.changed = false ∧ ∀ i (h : i < n),
    b'.channels[i].duties = b.channels[i].duties ∧
      (b.channels[i].dirty = false → b'.channels[i].dirty = false)

theorem Signals.refl (b : Board n) : b.Signals b := fun h => ⟨h, fun _ _ => ⟨rfl, id⟩⟩

theorem Signals.trans {b b' b'' : Board n} (h : b.Signals b') (h' : b'.Signals b'') :
    b.Signals b'' := by
  intro hquiet
  obtain ⟨hquiet', hkept'⟩ := h' hquiet
  obtain ⟨hquiet'', hkept⟩ := h hquiet'
  refine ⟨hquiet'', fun i hi => ⟨(hkept' i hi).1.trans (hkept i hi).1, fun hclean => ?_⟩⟩
  exact (hkept' i hi).2 ((hkept i hi).2 hclean)

theorem duties_congr {c c' : Channel} (hstatus : c'.status = c.status)
    (hcurrent : c'.current = c.current) : c'.duties = c.duties := by
  rw [Channel.duties, Channel.duties, hstatus, hcurrent]

theorem Edited.signals {b b' : Board n} (h : b.Edited b') : b.Signals b' := by
  intro hquiet
  rcases h.marked with hmark | ⟨hflag, hstatus⟩
  · rw [hquiet] at hmark
    cases hmark
  · refine ⟨hflag.symm.trans hquiet, fun i hi => ⟨?_, fun hclean => ?_⟩⟩
    · exact duties_congr (hstatus i hi) (h.channel i hi).current
    · exact (h.channel i hi).dirty.trans hclean

/-- A tick marks the board if some channel is on its way, and otherwise only cleans. -/
theorem signals_advance (b : Board n) : b.Signals b.advance := by
  intro hquiet
  rw [changed_advance, Bool.or_eq_false_iff] at hquiet
  obtain ⟨hunmarked, harrived⟩ := hquiet
  refine ⟨hunmarked, fun i hi => ?_⟩
  have hstays : b.channels[i].isConverging = false := by
    cases hc : b.channels[i].isConverging with
    | false => rfl
    | true =>
        have hsome := (isConverging_iff b).2 ⟨i, hi, hc⟩
        rw [harrived] at hsome
        cases hsome
  rw [getElem_channels_advance, Channel.advance_of_arrived hstays]
  exact ⟨rfl, fun _ => rfl⟩

theorem signals_apply (p : Dmx.Patch) (slots : Array UInt8) (b : Board n) :
    b.Signals (p.apply slots b) := by
  intro hquiet
  refine ⟨hquiet, fun i hi => ?_⟩
  rw [Dmx.Patch.getElem_channels_apply]
  exact ⟨rfl, id⟩

theorem signals_markPublished (b : Board n) (i : Fin n) : b.Signals (b.markPublished i) := by
  intro hquiet
  refine ⟨hquiet, fun j hj => ?_⟩
  rw [getElem_channels_markPublished]
  split
  · exact ⟨rfl, id⟩
  · exact ⟨rfl, id⟩

end Board

namespace Output

variable {n : Nat}

/-- Unless it is marked as changed, the board is what the lamps show, and none of its channels is
dirty. -/
def Shows (o : Output n) (b : Board n) : Prop :=
  b.changed = false → o.shown = b.render ∧ ∀ i (h : i < n), b.channels[i].dirty = false

theorem shows_powerUp : (powerUp n).Shows (Board.powerUp n) := by
  refine fun _ => ⟨Vector.ext fun i hi => ?_, fun i hi => ?_⟩
  · simp [powerUp, Frame.dark, Board.render, Board.powerUp, Channel.duties, Channel.powerUp]
  · simp [Board.powerUp, Channel.powerUp]

theorem Shows.of_signals {o : Output n} {b b' : Board n} (h : o.Shows b) (hsignals : b.Signals b') :
    o.Shows b' := by
  intro hquiet
  obtain ⟨hquiet', hkept⟩ := hsignals hquiet
  obtain ⟨hshown, hclean⟩ := h hquiet'
  refine ⟨hshown.trans (Vector.ext fun i hi => ?_), fun i hi => (hkept i hi).2 (hclean i hi)⟩
  rw [Board.render, Board.render, Vector.getElem_map, Vector.getElem_map]
  exact (hkept i hi).1.symm

theorem Shows.flush {o : Output n} {b : Board n} (h : o.Shows b) :
    (o.flush b).1.Shows (o.flush b).2.1 := by
  cases hchanged : b.changed with
  | true =>
      rw [flush_of_changed o hchanged]
      refine fun _ => ⟨(Board.render_settle b).symm, fun i hi => ?_⟩
      simp [Board.settle]
  | false =>
      rw [flush_of_unchanged o hchanged]
      exact h

theorem unmarked_flush (o : Output n) (b : Board n) : (o.flush b).2.1.changed = false := by
  cases hchanged : b.changed with
  | true =>
      rw [flush_of_changed o hchanged]
      rfl
  | false =>
      rw [flush_of_unchanged o hchanged]
      exact hchanged

theorem written_flush (o : Output n) (b : Board n) :
    (o.flush b).2.2 = some (o.flush b).1.shown ∨ (o.flush b).2.2 = none ∧ (o.flush b).1 = o := by
  cases hchanged : b.changed with
  | true =>
      rw [flush_of_changed o hchanged]
      exact Or.inl rfl
  | false =>
      rw [flush_of_unchanged o hchanged]
      exact Or.inr ⟨rfl, rfl⟩

end Output

theorem Frame.flatten_dark (n : Nat) : (Frame.dark n).flatten = List.replicate (3 * n) 0 := by
  have hflat : (List.replicate n Duties.dark).flatMap Duties.toList = List.replicate (3 * n) 0 := by
    induction n with
    | zero => rfl
    | succ n ih =>
        rw [List.replicate_succ, List.flatMap_cons, ih, Nat.mul_succ, Nat.add_comm,
          ← List.replicate_append_replicate]
        rfl
  rw [Frame.flatten, Frame.dark, Vector.toList_replicate, hflat]

namespace Session

variable {n : Nat} {η θ τ : Type}

/-- The row that was last written to the outputs. Before the first one all lamps are dark. -/
def lastRow (s : Session n η) : List UInt16 := s.rows.getLast?.getD (List.replicate (3 * n) 0)

/-- The outputs hold the last row, and it shows the board unless the board is marked. -/
structure Displays (s : Session n η) : Prop where
  shows : s.node.output.Shows s.node.board
  lastRow_eq : s.lastRow = s.node.output.shown.flatten

theorem displays_powerUp (settings : Settings) (options : Options) (hues : η) :
    (powerUp n settings options hues).Displays :=
  ⟨Output.shows_powerUp, (Frame.flatten_dark n).symm⟩

theorem Displays.of_signals {s s' : Session n η} (h : s.Displays)
    (hsignals : s.node.board.Signals s'.node.board) (houtput : s'.node.output = s.node.output)
    (hrows : s'.rows = s.rows) : s'.Displays := by
  refine ⟨?_, ?_⟩
  · rw [houtput]
    exact h.shows.of_signals hsignals
  · rw [lastRow, hrows, houtput]
    exact h.lastRow_eq

theorem Displays.process {s : Session n η} (h : s.Displays) : s.process.Displays := by
  refine h.of_signals ?_ s.node.output_process rfl
  show s.node.board.Signals s.node.process.2.board
  rw [s.node.board_process]
  refine Board.Signals.trans ?_ s.node.readDmx.board.signals_advance
  rcases s.node.board_readDmx with hsame | ⟨slots, _, _, happlied⟩
  · rw [hsame]
    exact Board.Signals.refl s.node.board
  · rw [happlied]
    exact Board.signals_apply s.node.patch slots s.node.board

theorem Displays.poll [Transport τ] {s : Session n η} (now : Instant) (t : τ) (h : s.Displays) :
    (s.poll now t).Displays := by
  refine h.of_signals ?_ rfl rfl
  rcases s.board_poll now t with hsame | ⟨i, _, htold⟩
  · rw [hsame]
    exact Board.Signals.refl s.node.board
  · rw [htold]
    exact Board.signals_markPublished s.node.board i

theorem Displays.flush {s : Session n η} (h : s.Displays) : s.flush.Displays := by
  refine ⟨h.shows.flush, ?_⟩
  show (s.rows ++
      ((s.node.output.flush s.node.board).2.2.map Frame.flatten).toList).getLast?.getD _ =
    (s.node.output.flush s.node.board).1.shown.flatten
  rcases s.node.output.written_flush s.node.board with hsome | ⟨hnone, hsame⟩
  · rw [hsome, Option.map_some, Option.toList_some, List.getLast?_concat, Option.getD_some]
  · rw [hnone, hsame, Option.map_none, Option.toList_none, List.append_nil]
    exact h.lastRow_eq

theorem Displays.step [HueSource η] [HueSource θ] [Transport τ] {s s' : Session n η}
    {e : Event θ τ} (h : s.Displays) (hstep : s.step? e = some s') : s'.Displays :=
  step?_invariant (fun _ hedit hs => hs.of_signals hedit.board.signals hedit.output rfl)
    (fun _ hs => hs.process) (fun _ now t hs => hs.poll now t) (fun _ hs => hs.flush)
    (fun _ _ _ hs => ⟨hs.shows, hs.lastRow_eq⟩) h hstep

/-- In every session the outputs show the board unless it is marked as changed, and right after a
step of the outputs, by itself or in a tick, it is not: they show the board, no channel is dirty,
and the row last written is the frame they show. -/
theorem outputs_show_board [HueSource η] [HueSource θ] [Transport τ] (settings : Settings)
    (options : Options) (hues : η) (events : List (Event θ τ)) (s : Session n η)
    (hrun : (powerUp n settings options hues).run? events = some s) :
    (s.node.board.changed = false → s.node.output.shown = s.node.board.render ∧
      ∀ i (h : i < n), s.node.board.channels[i].dirty = false) ∧
    ∀ (e : Event θ τ) (s' : Session n η), e.flushes = true → s.step? e = some s' →
      s'.node.output.shown = s'.node.board.render ∧
      (∀ i (h : i < n), s'.node.board.channels[i].dirty = false) ∧
      s'.lastRow = s'.node.output.shown.flatten := by
  have hs : s.Displays :=
    run?_invariant (fun _ _ _ _ h hstep => h.step hstep) (along_of_forall (fun _ _ => trivial) _ _)
      (displays_powerUp settings options hues) hrun
  refine ⟨hs.shows, fun e s' hflushes hstep => ?_⟩
  have hs' := hs.step hstep
  have hunmarked : s'.node.board.changed = false :=
    of_flushes (I := fun s => s.node.board.changed = false)
      (fun s => s.node.output.unmarked_flush s.node.board) (fun _ _ _ hs => hs) hflushes hstep
  obtain ⟨hshown, hclean⟩ := hs'.shows hunmarked
  exact ⟨hshown, hclean, hs'.lastRow_eq⟩

theorem outputs_show_board_red :
    ∃ s s' : Session 1 SplitMix,
      (powerUp 1 Settings.blank Options.standard ⟨0⟩).run?
        ([.operate (.setStatus .all .on false),
          .operate (.setTarget (.channel 0) ⟨255, 0, 1⟩ false), .process] :
            List (Event SplitMix Steady)) = some s ∧
      s.step? (.flush : Event SplitMix Steady) = some s' ∧
      s'.node.output.shown = s'.node.board.render ∧ s'.lastRow = [4096, 0, 1] := by
  refine ⟨_, _, rfl, rfl, ?_⟩
  obtain ⟨hshown, _, hrow⟩ := (outputs_show_board Settings.blank Options.standard (⟨0⟩ : SplitMix)
    ([.operate (.setStatus .all .on false), .operate (.setTarget (.channel 0) ⟨255, 0, 1⟩ false),
      .process] : List (Event SplitMix Steady)) _ rfl).2 .flush _ rfl rfl
  exact ⟨hshown, hrow.trans (by decide +kernel)⟩

end Session

end Luminaire
