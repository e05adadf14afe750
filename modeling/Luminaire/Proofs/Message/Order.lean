import Luminaire.Proofs.Message.Chain

/-!
# In which order commands come

A broker repeats what it keeps in an order of its own, and it may hand over a message twice. Whether
that matters is a question about single channels. `edits` is what a command makes of a channel that it
reaches; commands that may change places there may change places on the board, since the strobe
level has a command of its own and the mark of a change is only ever set.

Commands of different kinds mostly set different things. Base color and brightness both set the
target, but each sets it with what the other has set, so the later of the two leaves the target that
both call for. The exception is a color. It sets all that a base color, a brightness or a switch
sets, whatever was there before, so it must not change places with them. For the same reason nothing
is left of them after it (`Absorbs`), and in this sense every command overrides itself.
-/

namespace Luminaire

/-- The kinds of commands that set a part of what a color sets. -/
def Kind.partsOfColor : List Kind := [baseColor, brightness, switch]

namespace Command

/-- Chance has no part in the command. -/
def IsPlain (c : Command) : Prop := c.subject? ≠ some (.kind .random)

/-- The commands are for one channel each, and not for the same. -/
def Apart (c c' : Command) : Prop :=
  ∃ i j, c.destination? = some (.channel i) ∧ c'.destination? = some (.channel j) ∧ i ≠ j

def SetsColor (c : Command) : Prop := c.subject? = some (.kind .color)

/-- The command sets a part of what a color sets. -/
def SetsPartOfColor (c : Command) : Prop :=
  ∃ k ∈ Kind.partsOfColor, c.subject? = some (.kind k)

theorem Apart.reaches_eq_false {c c' : Command} (h : c.Apart c') {i : Nat}
    (hi : c.reaches i = true) : c'.reaches i = false := by
  obtain ⟨j, j', hd, hd', hne⟩ := h
  have hj : j = i := by simpa [reaches, hd, Destination.covers] using hi
  simp [reaches, hd', Destination.covers, ← hj, Ne.symm hne]

variable {n : Nat} {η : Type} [HueSource η]

/-- The command carried out in place: whether it had an effect, and the board and the hues after
it. -/
def perform (command : Command) (retained : Bool) (s : Board n × η) : Bool × Board n × η :=
  carryOut (command.chain retained) s

theorem perform_eq (command : Command) (retained : Bool) (b : Board n) (hues : η) :
    command.perform retained (b, hues) =
      if command.accepted n retained then
        (true, command.outcome b hues, command.huesAfter n hues)
      else (false, b, hues) := by
  rw [perform, carryOut_chain, apply_eq_ite]
  by_cases h : command.accepted n retained = true
  · simp [h]
  · simp [h]

/-- What the command makes of the channel with index `i`, if it reaches it. -/
def edits (command : Command) (hues : η) (i : Nat) (h : i < n) (c : Channel) : Channel :=
  command.touch (command.drawn hues i h c) c

theorem getElem_channels_outcome_eq_edits (command : Command) (b : Board n) (hues : η) (i : Nat)
    (h : i < n) :
    (command.outcome b hues).channels[i] =
      if command.reaches i then command.edits hues i h b.channels[i] else b.channels[i] :=
  command.getElem_channels_outcome b hues i h

theorem IsPlain.huesAfter_eq {c : Command} (h : c.IsPlain) (n : Nat) (hues : η) :
    c.huesAfter n hues = hues := by
  cases c with
  | random d => exact absurd rfl h
  | _ => rfl

theorem IsPlain.edits_congr {c : Command} (hplain : c.IsPlain) (hues hues' : η) (i : Nat)
    (h : i < n) (channel : Channel) :
    c.edits hues i h channel = c.edits hues' i h channel := by
  cases c with
  | random d => exact absurd rfl hplain
  | _ => rfl

section Order

/-- In either order the commands have the same results, and leave the same board and the same
hues. -/
def Commute (c c' : Command) (retained retained' : Bool) (s : Board n × η) : Prop :=
  let first := c.perform retained s
  let first' := c'.perform retained' s
  let second := c'.perform retained' first.2
  let second' := c.perform retained first'.2
  second.2 = second'.2 ∧ second'.1 = first.1 ∧ second.1 = first'.1

variable {c c' : Command}

/-- On a channel that both reach, commands of different kinds may change places, unless one of them
is a color and the other sets a part of it. -/
theorem edits_comm (hc : c.IsPlain) (hc' : c'.IsPlain) (hkind : c.subject? ≠ c'.subject?)
    (hpart : ¬ (c.SetsColor ∧ c'.SetsPartOfColor)) (hpart' : ¬ (c'.SetsColor ∧ c.SetsPartOfColor))
    (hues : η) (i : Nat) (h : i < n) (channel : Channel) :
    c'.edits hues i h (c.edits hues i h channel) =
      c.edits hues i h (c'.edits hues i h channel) := by
  cases c <;> cases c' <;>
    first
      | rfl
      | exact absurd rfl hc
      | exact absurd rfl hc'
      | exact absurd rfl hkind
      | exact (hpart ⟨rfl, _, by decide, rfl⟩).elim
      | exact (hpart' ⟨rfl, _, by decide, rfl⟩).elim

/-- Neither mode nor strobe level has anything to do with what other commands set, be it by
chance. -/
theorem edits_comm_of_aside (haside : c.subject? = some (.kind .mode) ∨ c.subject? = some .strobe)
    (hkind : c.subject? ≠ c'.subject?) (hues : η) (i : Nat) (h : i < n) (channel : Channel) :
    c'.edits hues i h (c.edits hues i h channel) =
      c.edits hues i h (c'.edits hues i h channel) := by
  cases c with
  | mode d m =>
      cases c' with
      | mode _ _ => exact absurd rfl hkind
      | random d' => cases d' <;> rfl
      | _ => rfl
  | strobe level => rfl
  | _ => simp [subject?] at haside

theorem strobeAfter_of_ne {command : Command} (h : command.subject? ≠ some .strobe)
    (level : UInt8) : command.strobeAfter level = level := by
  cases command with
  | strobe _ => exact absurd rfl h
  | _ => rfl

theorem strobeAfter_comm (h : c.subject? ≠ some .strobe ∨ c'.subject? ≠ some .strobe)
    (level : UInt8) :
    c'.strobeAfter (c.strobeAfter level) = c.strobeAfter (c'.strobeAfter level) := by
  rcases h with h | h
  · rw [strobeAfter_of_ne h, strobeAfter_of_ne h]
  · rw [strobeAfter_of_ne h, strobeAfter_of_ne h]

/-- Commands that may change places on every channel that both reach may change places on a board.
Only the second may take hues. -/
theorem commute_of_edits (hc : c.IsPlain)
    (hstrobe : c.subject? ≠ some .strobe ∨ c'.subject? ≠ some .strobe) (b : Board n) (hues : η)
    (hedits : ∀ i (h : i < n), c.reaches i = true → c'.reaches i = true →
      c'.edits hues i h (c.edits hues i h b.channels[i]) =
        c.edits hues i h (c'.edits hues i h b.channels[i]))
    (retained retained' : Bool) : c.Commute c' retained retained' (b, hues) := by
  have houtcome : c'.outcome (c.outcome b hues) hues =
      c.outcome (c'.outcome b hues) (c'.huesAfter n hues) := by
    refine Board.ext_channels (fun i h => ?_) (strobeAfter_comm hstrobe b.strobe)
      (Bool.or_left_comm _ _ _)
    simp only [getElem_channels_outcome_eq_edits, hc.edits_congr (c'.huesAfter n hues) hues]
    by_cases hi : c.reaches i = true
    · by_cases hi' : c'.reaches i = true
      · simp [hi, hi', hedits i h hi hi']
      · simp [hi, hi']
    · simp [hi]
  by_cases haccepted : c.accepted n retained = true
  · by_cases haccepted' : c'.accepted n retained' = true
    · simp [Commute, perform_eq, haccepted, haccepted', hc.huesAfter_eq, houtcome]
    · simp [Commute, perform_eq, haccepted, haccepted']
  · by_cases haccepted' : c'.accepted n retained' = true
    · simp [Commute, perform_eq, haccepted, haccepted']
    · simp [Commute, perform_eq, haccepted, haccepted']

/-- Commands without chance may change places if they are for two different channels, or if they are
of different kinds and none of them is a color of which the other sets a part. A mode or a strobe
level may change places with any command of another kind. -/
theorem commands_commute (c c' : Command) (retained retained' : Bool) (s : Board n × η) :
    (c.IsPlain → c'.IsPlain →
      c.Apart c' ∨ c.subject? ≠ c'.subject? ∧ ¬ (c.SetsColor ∧ c'.SetsPartOfColor) ∧
        ¬ (c'.SetsColor ∧ c.SetsPartOfColor) →
      c.Commute c' retained retained' s) ∧
    (c.subject? = some (.kind .mode) ∨ c.subject? = some .strobe → c.subject? ≠ c'.subject? →
      c.Commute c' retained retained' s) := by
  obtain ⟨b, hues⟩ := s
  have hstrobe : c.subject? ≠ c'.subject? →
      c.subject? ≠ some .strobe ∨ c'.subject? ≠ some .strobe := by
    intro hkind
    by_cases h : c.subject? = some .strobe
    · exact Or.inr fun h' => hkind (h.trans h'.symm)
    · exact Or.inl h
  constructor
  · rintro hc hc' (hapart | ⟨hkind, hpart, hpart'⟩)
    · have hlevel : c.subject? ≠ some .strobe := by
        obtain ⟨i, j, hd, -⟩ := hapart
        cases c <;> simp_all [subject?, destination?]
      refine commute_of_edits hc (Or.inl hlevel) b hues (fun i h hi hi' => ?_) retained retained'
      simp [hapart.reaches_eq_false hi] at hi'
    · exact commute_of_edits hc (hstrobe hkind) b hues
        (fun i h _ _ => edits_comm hc hc' hkind hpart hpart' hues i h b.channels[i])
        retained retained'
  · intro haside hkind
    have hc : c.IsPlain := by
      rcases haside with h | h <;> simp [IsPlain, h]
    exact commute_of_edits hc (hstrobe hkind) b hues
      (fun i h _ _ => edits_comm_of_aside haside hkind hues i h b.channels[i]) retained retained'

/-- A base color for all channels and a replayed brightness for one of them, and a fade mode and a
random color for the same channel. -/
theorem commands_commute_amber :
    let s : Board 2 × SplitMix := (Board.powerUp 2, ⟨0⟩)
    let c := baseColor .all ⟨255, 128, 0⟩
    let c' := brightness (.channel 1) 100
    (c.IsPlain ∧ c'.IsPlain ∧ c.subject? ≠ c'.subject? ∧ ¬ (c.SetsColor ∧ c'.SetsPartOfColor) ∧
      ¬ (c'.SetsColor ∧ c.SetsPartOfColor)) ∧
    c.Commute c' false true s ∧
    ((c'.perform true (c.perform false s).2).2.1.channels.get 1).target = ⟨100, 50, 0⟩ ∧
    (mode (.channel 0) .fade).Commute (random (.channel 0)) true false s := by
  intro s c c'
  have hkind : c.subject? ≠ c'.subject? := by decide
  have hpart : ¬ (c.SetsColor ∧ c'.SetsPartOfColor) := fun h => nomatch h.1
  have hpart' : ¬ (c'.SetsColor ∧ c.SetsPartOfColor) := fun h => nomatch h.1
  refine ⟨⟨nofun, nofun, hkind, hpart, hpart'⟩, ?_, by decide +kernel, ?_⟩
  · exact (commands_commute c c' false true s).1 nofun nofun (Or.inr ⟨hkind, hpart, hpart'⟩)
  · exact (commands_commute _ (random (.channel 0)) true false s).2 (Or.inl rfl) (by decide)

end Order

section Override

/-- Neither command has to do with chance, and what the first sets covers what the second sets and
does not depend on it. -/
structure Absorbs (c c' : Command) : Prop where
  plain : c.IsPlain
  plain' : c'.IsPlain
  destination : c.destination? = c'.destination?
  accepted : ∀ n retained, c.accepted n retained = c'.accepted n retained
  touch : ∀ (x x' y : Color) (channel : Channel), c.touch x (c'.touch y channel) = c.touch x' channel
  strobe : ∀ level, c.strobeAfter (c'.strobeAfter level) = c.strobeAfter level
  status : (c.setsStatus || c'.setsStatus) = c.setsStatus

theorem absorbs_self {c : Command} (hc : c.IsPlain) : c.Absorbs c where
  plain := hc
  plain' := hc
  destination := rfl
  accepted _ _ := rfl
  touch _ _ _ _ := by
    cases c with
    | random d => exact absurd rfl hc
    | _ => rfl
  strobe level := by
    cases c with
    | strobe level => cases level <;> rfl
    | _ => rfl
  status := Bool.or_self _

/-- Nothing is left of a color, or of what sets a part of it, after a color for the same channels. -/
theorem color_absorbs {c : Command} {d : Destination} (hd : c.destination? = some d)
    (hpart : c.SetsColor ∨ c.SetsPartOfColor) (shade : Color) : (color d shade).Absorbs c := by
  cases c with
  | color d' _ | baseColor d' _ | brightness d' _ | switch d' _ =>
      obtain rfl : d' = d := Option.some.inj hd
      exact ⟨nofun, nofun, rfl, fun _ _ => rfl, fun _ _ _ _ => rfl, fun _ => rfl, rfl⟩
  | mode d' _ | random d' => simp [SetsColor, SetsPartOfColor, Kind.partsOfColor, subject?] at hpart
  | strobe _ | unrecognized => cases hd

variable {c c' : Command}

theorem Absorbs.outcome_eq (h : c.Absorbs c') (b : Board n) (hues : η) :
    c.outcome (c'.outcome b hues) hues = c.outcome b hues := by
  have hreaches : ∀ i, c'.reaches i = c.reaches i := fun i => by
    rw [reaches, reaches, h.destination]
  refine Board.ext_channels (fun i hi => ?_) (h.strobe b.strobe) ?_
  · simp only [getElem_channels_outcome, hreaches]
    by_cases hreach : c.reaches i = true
    · simp only [hreach, if_true]
      exact h.touch _ _ _ _
    · simp [hreach]
  · show (c.setsStatus || (c'.setsStatus || b.changed)) = (c.setsStatus || b.changed)
    rw [← Bool.or_assoc, h.status]

theorem Absorbs.perform_eq (h : c.Absorbs c') (retained : Bool) (s : Board n × η) :
    c.perform retained (c'.perform retained s).2 = c.perform retained s := by
  obtain ⟨b, hues⟩ := s
  by_cases haccepted : c'.accepted n retained = true
  · simp [Command.perform_eq, h.accepted, haccepted, h.plain.huesAfter_eq, h.plain'.huesAfter_eq,
      h.outcome_eq]
  · simp [Command.perform_eq, haccepted]

/-- A command without chance that is carried out twice has the result and the effect of one. And a
color has the same result and leaves the same board whether or not a color, or what sets a part of a
color, was carried out before it for the same channels and with the same flag; this holds whether or
not they are refused. -/
theorem repeated_or_overridden (retained : Bool) (s : Board n × η) :
    (∀ c : Command, c.IsPlain →
      c.perform retained (c.perform retained s).2 = c.perform retained s) ∧
    ∀ (d : Destination) (shade : Color) (c : Command), c.destination? = some d →
      c.SetsColor ∨ c.SetsPartOfColor →
      (color d shade).perform retained (c.perform retained s).2 =
        (color d shade).perform retained s :=
  ⟨fun _ hc => (absorbs_self hc).perform_eq retained s,
    fun _ shade _ hd hpart => (color_absorbs hd hpart shade).perform_eq retained s⟩

/-- A brightness handed over twice, and a color after the switch that it overrides. -/
theorem repeated_or_overridden_red :
    let s : Board 2 × SplitMix := (Board.powerUp 2, ⟨0⟩)
    let dim := brightness .all 40
    let off := switch (.channel 1) .off
    let red := color (.channel 1) ⟨255, 0, 0⟩
    dim.IsPlain ∧ off.destination? = some (.channel 1) ∧ off.SetsPartOfColor ∧
      (dim.perform false (dim.perform false s).2).1 = true ∧
      dim.perform false (dim.perform false s).2 = dim.perform false s ∧
      (red.perform true (off.perform true s).2).1 = true ∧
      red.perform true (off.perform true s).2 = red.perform true s := by
  intro s dim off red
  have hpart : off.SetsPartOfColor := ⟨_, by decide, rfl⟩
  have hdim : dim.perform false (dim.perform false s).2 = dim.perform false s :=
    (repeated_or_overridden false s).1 dim nofun
  have hred : red.perform true (off.perform true s).2 = red.perform true s :=
    (repeated_or_overridden true s).2 (.channel 1) ⟨255, 0, 0⟩ off rfl (Or.inr hpart)
  exact ⟨nofun, rfl, hpart, by rw [hdim]; decide +kernel, hdim, by rw [hred]; decide +kernel, hred⟩

end Override

end Command

end Luminaire
