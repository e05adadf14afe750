import Luminaire.Proofs.Color.Draws
import Luminaire.Proofs.Message.Order

/-!
# Broadcasts

A broadcast takes each operation of its chain to all channels before it comes to the next, while
single commands take one channel after the other through the whole chain. It makes no difference:
what is left of either is that every channel has been edited once (`exists_performAll_toward`), and
a channel that is edited does not look at the others. Only a board without channels tells the two
apart, since a broadcast of a status marks even that as changed.

Chance is what channels do share. The hues come from one source, so a random color for all channels
takes them in the order of the channels, and it gives every channel the full value, where a random
color for one channel takes the brightness of that channel for the value.
-/

namespace Luminaire

/-- The channel switched on in a new base color, on its way to what its brightness makes of it. -/
def Channel.recolor (c : Channel) (color : Color) : Channel :=
  { c with
    base := color
    target := color.dim c.brightness
    status := .on
    pendingPublish := true }

namespace Command

/-- The same command for other channels. -/
def toward (d : Destination) : Command → Command
  | .color _ shade => .color d shade
  | .baseColor _ shade => .baseColor d shade
  | .brightness _ value => .brightness d value
  | .mode _ m => .mode d m
  | .switch _ status => .switch d status
  | .random _ => .random d
  | .strobe level => .strobe level
  | .unrecognized => .unrecognized

variable {n : Nat} {η : Type} [HueSource η]

/-- Some commands carried out in place, the first one first: whether each had an effect, and the board
and the hues after all of them. -/
def performAll (retained : Bool) : List Command → Board n × η → List Bool × Board n × η
  | [], s => ([], s)
  | command :: rest, s =>
      let (done, s) := command.perform retained s
      let (others, s) := performAll retained rest s
      (done :: others, s)

theorem performAll_cons (retained : Bool) (command : Command) (rest : List Command)
    (s : Board n × η) :
    performAll retained (command :: rest) s =
      ((command.perform retained s).1 :: (performAll retained rest (command.perform retained s).2).1,
        (performAll retained rest (command.perform retained s).2).2) := rfl

section Singles

variable {c : Command}

theorem edits_toward (hc : c.IsPlain) (d : Destination) (hues : η) (i : Nat) (h : i < n)
    (channel : Channel) : (c.toward d).edits hues i h channel = c.edits hues i h channel := by
  cases c with
  | random _ => exact absurd rfl hc
  | _ => rfl

theorem isPlain_toward (hc : c.IsPlain) (d : Destination) : (c.toward d).IsPlain := by
  cases c with
  | random _ => exact absurd rfl hc
  | _ => exact nofun

theorem setsStatus_toward (c : Command) (d : Destination) :
    (c.toward d).setsStatus = c.setsStatus := by
  cases c <;> rfl

/-- The command turned toward other channels is taken if these are there, and it is for no others. -/
theorem scope_toward (hc : c.IsPlain) (hd : c.destination?.isSome) (d : Destination) (n : Nat) :
    (∀ i, (c.toward d).reaches i = d.covers i) ∧
      (c.toward d).accepted n false = d.accepted n false ∧
      ∀ level, (c.toward d).strobeAfter level = level := by
  cases c with
  | random _ => exact absurd rfl hc
  | strobe _ | unrecognized => cases hd
  | _ => exact ⟨fun _ => rfl, rfl, fun _ => rfl⟩

/-- What is left of a command turned toward channels that are there. -/
theorem exists_perform_toward (hc : c.IsPlain) (hd : c.destination?.isSome) {d : Destination}
    (haccepted : d.accepted n false = true) (b : Board n) (hues : η) :
    ∃ b' : Board n, (c.toward d).perform false (b, hues) = (true, b', hues) ∧
      (∀ i (h : i < n), b'.channels[i] =
        if d.covers i then c.edits hues i h b.channels[i] else b.channels[i]) ∧
      b'.strobe = b.strobe ∧ b'.changed = (c.setsStatus || b.changed) := by
  obtain ⟨hreaches, htaken, hstrobe⟩ := scope_toward hc hd d n
  refine ⟨(c.toward d).outcome b hues, ?_, fun i h => ?_, hstrobe b.strobe, ?_⟩
  · rw [perform_eq, htaken, if_pos haccepted, (isPlain_toward hc d).huesAfter_eq]
  · rw [getElem_channels_outcome_eq_edits, hreaches, edits_toward hc]
  · show ((c.toward d).setsStatus || b.changed) = _
    rw [setsStatus_toward]

/-- Single commands, each for a channel of its own, edit every one of these once. -/
theorem exists_performAll_toward (hc : c.IsPlain) (hd : c.destination?.isSome) {order : List Nat}
    (hnodup : order.Nodup) (hlt : ∀ i ∈ order, i < n) (b : Board n) (hues : η) :
    ∃ b' : Board n,
      performAll false (order.map fun i => c.toward (.channel i)) (b, hues) =
        (List.replicate order.length true, b', hues) ∧
      (∀ i (h : i < n), b'.channels[i] =
        if i ∈ order then c.edits hues i h b.channels[i] else b.channels[i]) ∧
      b'.strobe = b.strobe ∧ b'.changed = (!order.isEmpty && c.setsStatus || b.changed) := by
  induction order generalizing b with
  | nil => exact ⟨b, rfl, by simp, rfl, rfl⟩
  | cons j rest ih =>
      obtain ⟨hj, hrest⟩ := List.nodup_cons.1 hnodup
      obtain ⟨hjn, hltrest⟩ := List.forall_mem_cons.1 hlt
      have haccepted : (Destination.channel j).accepted n false = true := decide_eq_true hjn
      obtain ⟨b₁, hfirst, hchannels₁, hstrobe₁, hchanged₁⟩ :=
        exists_perform_toward hc hd haccepted b hues
      obtain ⟨b', hothers, hchannels, hstrobe, hchanged⟩ := ih hrest hltrest b₁
      refine ⟨b', ?_, fun i h => ?_, hstrobe.trans hstrobe₁, ?_⟩
      · rw [List.map_cons, performAll_cons, hfirst, hothers]
        rfl
      · rw [hchannels i h, hchannels₁ i h]
        by_cases hij : j = i
        · subst hij
          simp [Destination.covers, hj]
        · simp [Destination.covers, hij, Ne.symm hij]
      · rw [hchanged, hchanged₁]
        cases c.setsStatus <;> simp

end Singles

/-- What is left of a random color for channels that are there. -/
theorem exists_perform_random {d : Destination} (haccepted : d.accepted n false = true)
    (b : Board n) (hues : η) :
    ∃ b' : Board n, (random d).perform false (b, hues) = (true, b', d.huesAfter n hues) ∧
      b'.strobe = b.strobe ∧ b'.changed = true ∧
      ∀ i (h : i < n), b'.channels[i] =
        if d.covers i then b.channels[i].recolor (d.draw hues i h b.channels[i])
        else b.channels[i] := by
  have htaken : (random d : Command).accepted n false = true := haccepted
  refine ⟨(random d).outcome b hues, ?_, rfl, rfl, fun i h => ?_⟩
  · rw [perform_eq, if_pos htaken]
    rfl
  · rw [getElem_channels_outcome]
    rfl

/-- On a board that has channels, a broadcast without chance has the effect of the same command for
one channel after the other, in whatever order, and none of them is refused. A random color for all
channels takes as many hues as there are channels, each channel the next one and with full value; a
random color for one channel takes one hue, with the brightness of the channel as value, and leaves
the others alone. Each channel that gets a color is switched on, on its way to what its brightness
makes of the color. -/
theorem broadcast_is_all_singles (b : Board n) (hues : η) :
    (0 < n → ∀ c : Command, c.IsPlain → c.destination? = some .all →
      ∀ order : List Nat, order.Perm (List.range n) →
        (c.perform false (b, hues)).1 = true ∧
        performAll false (order.map fun i => c.toward (.channel i)) (b, hues) =
          (List.replicate n true, (c.perform false (b, hues)).2)) ∧
    (∃ b' : Board n,
      (random .all).perform false (b, hues) = (true, b', HueSource.after n hues) ∧
      b'.strobe = b.strobe ∧ b'.changed = true ∧
      ∀ i (h : i < n), b'.channels[i] =
        b.channels[i].recolor (Hsv.toColor ⟨HueSource.hue i hues, 1.0, 1.0⟩)) ∧
    ∀ i (h : i < n), ∃ b' : Board n,
      (random (.channel i)).perform false (b, hues) = (true, b', HueSource.after 1 hues) ∧
      b'.strobe = b.strobe ∧ b'.changed = true ∧
      b'.channels[i] = b.channels[i].recolor
        (Hsv.toColor ⟨HueSource.hue 0 hues, 1.0, b.channels[i].brightness.toFloat / 255.0⟩) ∧
      ∀ j (hj : j < n), j ≠ i → b'.channels[j] = b.channels[j] := by
  refine ⟨fun hn c hc hall order horder => ?_, ?_, fun i h => ?_⟩
  · have hd : c.destination?.isSome := by rw [hall]; rfl
    have hself : c.toward .all = c := by
      cases c <;> cases hall <;> rfl
    obtain ⟨b₁, hbroadcast, hchannels₁, hstrobe₁, hchanged₁⟩ :=
      exists_perform_toward hc hd (d := .all) (n := n) rfl b hues
    obtain ⟨b₂, hsingles, hchannels₂, hstrobe₂, hchanged₂⟩ :=
      exists_performAll_toward hc hd (horder.nodup_iff.2 List.nodup_range)
        (fun i hi => List.mem_range.1 (horder.mem_iff.1 hi)) b hues
    have hlength : order.length = n := horder.length_eq.trans List.length_range
    have hsome : order.isEmpty = false := by
      rw [List.isEmpty_eq_false_iff, ← List.length_pos_iff, hlength]
      exact hn
    have hsame : b₂ = b₁ := by
      refine Board.ext_channels (fun i h => ?_) (hstrobe₂.trans hstrobe₁.symm) ?_
      · rw [hchannels₁ i h, hchannels₂ i h, if_pos (horder.mem_iff.2 (List.mem_range.2 h))]
        rfl
      · rw [hchanged₁, hchanged₂, hsome]
        rfl
    rw [hself] at hbroadcast
    rw [hbroadcast, hsingles, hsame, hlength]
    exact ⟨rfl, rfl⟩
  · obtain ⟨b', hperform, hstrobe, hchanged, hchannels⟩ :=
      exists_perform_random (d := .all) (n := n) rfl b hues
    refine ⟨b', ?_, hstrobe, hchanged, fun i h => ?_⟩
    · rw [hperform, Destination.huesAfter, HueSource.snd_draw]
    · rw [hchannels i h, ← HueSource.getElem_draw n hues i h]
      rfl
  · obtain ⟨b', hperform, hstrobe, hchanged, hchannels⟩ :=
      exists_perform_random (d := .channel i) (n := n) (decide_eq_true h) b hues
    refine ⟨b', hperform, hstrobe, hchanged, ?_, fun j hj hji => ?_⟩
    · rw [hchannels i h, Destination.covers, beq_self_eq_true, if_pos rfl]
      rfl
    · rw [hchannels j hj, Destination.covers, beq_false_of_ne (Ne.symm hji)]
      rfl

/-- A color for three channels, and a random color for the last of them. -/
theorem broadcast_is_all_singles_red :
    let s : Board 3 × SplitMix := (Board.powerUp 3, ⟨0⟩)
    let red : Color := ⟨255, 0, 0⟩
    let c := color .all red
    (0 < 3 ∧ c.IsPlain ∧ c.destination? = some .all ∧ [2, 0, 1].Perm (List.range 3)) ∧
    performAll false
        [color (.channel 2) red, color (.channel 0) red, color (.channel 1) red] s =
      ([true, true, true], (c.perform false s).2) ∧
    (c.perform false s).2.1.changed = true ∧
    2 < 3 ∧ ∃ b' : Board 3,
      (random (.channel 2)).perform false s = (true, b', HueSource.after 1 ⟨0⟩) ∧
      ∀ j (hj : j < 3), j ≠ 2 → b'.channels[j] = Channel.powerUp := by
  intro s red c
  have hperm : [2, 0, 1].Perm (List.range 3) := by decide
  obtain ⟨hsingles, -, hrandom⟩ := broadcast_is_all_singles s.1 s.2
  obtain ⟨b', hperform, -, -, -, hothers⟩ := hrandom 2 (by decide)
  refine ⟨⟨by decide, nofun, rfl, hperm⟩, ?_, by decide +kernel, by decide, b', hperform, ?_⟩
  · exact (hsingles (by decide) c nofun rfl [2, 0, 1] hperm).2
  · intro j hj hne
    rw [hothers j hj hne]
    exact Vector.getElem_replicate hj

end Command

end Luminaire
