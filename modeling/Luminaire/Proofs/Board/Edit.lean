import Luminaire.Message.Effect
import Luminaire.Proofs.Board.Reach

/-!
# What an edit can do

Commands and operations set what a channel is meant to show; only a tick moves what it does show.
`Board.Edited` keeps of each of them what the flags are answerable for: shown colors and dirty
flags stay, a channel whose `portrait` changes is pending, and a board on which a status changes
is marked as changed. The relation is reflexive and transitive, so a chain of operations is
covered by its links, whether it sets each flag once or several times.
-/

namespace Luminaire

/-- What observers are told of a channel. -/
structure Portrait where
  current : Color
  base : Color
  status : Status
  brightness : UInt8
  mode : FadeMode
deriving DecidableEq

namespace Channel

/-- The present state of the channel as observers should know it. -/
def portrait (c : Channel) : Portrait where
  current := c.current
  base := c.base
  status := c.status
  brightness := c.brightness
  mode := c.mode

/-- The step from `c` to `c'` tells observers nothing wrong: there is something to tell after it,
or there is nothing new. -/
def Announces (c c' : Channel) : Prop :=
  c'.pendingPublish = true ∨ c'.pendingPublish = c.pendingPublish ∧ c'.portrait = c.portrait

theorem Announces.refl (c : Channel) : c.Announces c := Or.inr ⟨rfl, rfl⟩

theorem Announces.trans {c c' c'' : Channel} (h : c.Announces c') (h' : c'.Announces c'') :
    c.Announces c'' := by
  rcases h' with hpending | ⟨hflag, hportrait⟩
  · exact Or.inl hpending
  · rcases h with hpending | ⟨hflag', hportrait'⟩
    · exact Or.inl (hflag.trans hpending)
    · exact Or.inr ⟨hflag.trans hflag', hportrait.trans hportrait'⟩

theorem Announces.portrait_eq {c c' : Channel} (h : c.Announces c')
    (hidle : c'.pendingPublish = false) :
    c.pendingPublish = false ∧ c'.portrait = c.portrait := by
  rcases h with hpending | ⟨hflag, hportrait⟩
  · rw [hidle] at hpending
    cases hpending
  · exact ⟨hflag.symm.trans hidle, hportrait⟩

/-- What an edit can do to a channel. -/
structure Edited (c c' : Channel) : Prop where
  current : c'.current = c.current
  dirty : c'.dirty = c.dirty
  announces : c.Announces c'

theorem Edited.refl (c : Channel) : c.Edited c := ⟨rfl, rfl, Announces.refl c⟩

theorem Edited.trans {c c' c'' : Channel} (h : c.Edited c') (h' : c'.Edited c'') : c.Edited c'' :=
  ⟨h'.current.trans h.current, h'.dirty.trans h.dirty, h.announces.trans h'.announces⟩

theorem edited_tint (c : Channel) (color : Color) : c.Edited (c.tint color) :=
  ⟨rfl, rfl, Or.inl rfl⟩

end Channel

namespace Board

variable {n : Nat} {η : Type} [HueSource η]

/-- What an edit can do to a board. -/
structure Edited (b b' : Board n) : Prop where
  channel : ∀ i (h : i < n), b.channels[i].Edited b'.channels[i]
  marked : b'.changed = true ∨
    b'.changed = b.changed ∧ ∀ i (h : i < n), b'.channels[i].status = b.channels[i].status

theorem Edited.refl (b : Board n) : b.Edited b :=
  ⟨fun i h => Channel.Edited.refl b.channels[i], Or.inr ⟨rfl, fun _ _ => rfl⟩⟩

theorem Edited.trans {b b' b'' : Board n} (h : b.Edited b') (h' : b'.Edited b'') :
    b.Edited b'' := by
  refine ⟨fun i hi => (h.channel i hi).trans (h'.channel i hi), ?_⟩
  rcases h'.marked with hmark | ⟨hflag, hstatus⟩
  · exact Or.inl hmark
  · rcases h.marked with hmark | ⟨hflag', hstatus'⟩
    · exact Or.inl (hflag.trans hmark)
    · exact Or.inr ⟨hflag.trans hflag', fun i hi => (hstatus i hi).trans (hstatus' i hi)⟩

theorem Edited.of_update {b b' : Board n} {d : Destination} {replayed : Bool}
    {f : Channel → Channel} (h : b.update d replayed f = some b')
    (hedit : ∀ c : Channel, c.Edited (f c)) (hstatus : ∀ c : Channel, (f c).status = c.status) :
    b.Edited b' := by
  obtain ⟨_, rfl⟩ := (update_eq_some_iff b b' d replayed f).1 h
  refine ⟨fun i hi => ?_, Or.inr ⟨rfl, fun i hi => ?_⟩⟩
  · rw [getElem_channels_mapOn]
    split
    · exact hedit b.channels[i]
    · exact Channel.Edited.refl b.channels[i]
  · rw [getElem_channels_mapOn]
    split
    · exact hstatus b.channels[i]
    · rfl

theorem edited_setTarget {b b' : Board n} {d : Destination} {color : Color} {replayed : Bool}
    (h : b.setTarget d color replayed = some b') : b.Edited b' :=
  Edited.of_update h (fun _ => ⟨rfl, rfl, Or.inr ⟨rfl, rfl⟩⟩) fun _ => rfl

theorem edited_setBase {b b' : Board n} {d : Destination} {color : Color} {replayed : Bool}
    (h : b.setBase d color replayed = some b') : b.Edited b' :=
  Edited.of_update h (fun _ => ⟨rfl, rfl, Or.inl rfl⟩) fun _ => rfl

theorem edited_redim {b b' : Board n} {d : Destination} {replayed : Bool}
    (h : b.redim d replayed = some b') : b.Edited b' :=
  Edited.of_update h (fun _ => ⟨rfl, rfl, Or.inr ⟨rfl, rfl⟩⟩) fun _ => rfl

theorem edited_setBrightness {b b' : Board n} {d : Destination} {brightness : UInt8}
    {replayed : Bool} (h : b.setBrightness d brightness replayed = some b') : b.Edited b' :=
  Edited.of_update h (fun _ => ⟨rfl, rfl, Or.inl rfl⟩) fun _ => rfl

theorem edited_setMode {b b' : Board n} {d : Destination} {mode : FadeMode} {replayed : Bool}
    (h : b.setMode d mode replayed = some b') : b.Edited b' :=
  Edited.of_update h (fun _ => ⟨rfl, rfl, Or.inl rfl⟩) fun _ => rfl

theorem edited_setStatus {b b' : Board n} {d : Destination} {status : Status} {replayed : Bool}
    (h : b.setStatus d status replayed = some b') : b.Edited b' := by
  obtain ⟨b₁, hupdate, rfl⟩ := Option.map_eq_some_iff.1 h
  obtain ⟨_, rfl⟩ := (update_eq_some_iff b b₁ d replayed _).1 hupdate
  refine ⟨fun i hi => ?_, Or.inl rfl⟩
  show b.channels[i].Edited (b.mapOn d _).channels[i]
  rw [getElem_channels_mapOn]
  split
  · exact ⟨rfl, rfl, Or.inl rfl⟩
  · exact Channel.Edited.refl b.channels[i]

theorem edited_setStrobe (b : Board n) (level : UInt8) : b.Edited (b.setStrobe level) :=
  ⟨fun i hi => Channel.Edited.refl b.channels[i], Or.inr ⟨rfl, fun _ _ => rfl⟩⟩

theorem edited_randomize {b b' : Board n} {d : Destination} {hues hues' : η}
    (h : b.randomize d hues = some (b', hues')) : b.Edited b' := by
  cases d with
  | all =>
      obtain ⟨rfl, _⟩ := Prod.mk.inj (Option.some.inj h)
      refine ⟨fun i hi => ?_, Or.inr ⟨rfl, fun i hi => ?_⟩⟩
      · rw [Vector.getElem_zipWith]
        exact Channel.edited_tint _ _
      · rw [Vector.getElem_zipWith]
        rfl
  | channel j =>
      by_cases hj : j < n
      · rw [randomize, dif_pos hj] at h
        obtain ⟨rfl, _⟩ := Prod.mk.inj (Option.some.inj h)
        refine ⟨fun i hi => ?_, Or.inr ⟨rfl, fun i hi => ?_⟩⟩
        · rw [Vector.getElem_set]
          split
          next hji =>
            subst hji
            exact Channel.edited_tint _ _
          next => exact Channel.Edited.refl b.channels[i]
        · rw [Vector.getElem_set]
          split
          next hji =>
            subst hji
            rfl
          next => rfl
      · rw [randomize_channel_of_le b (Nat.le_of_not_lt hj)] at h
        cases h

end Board

namespace Command

variable {n : Nat} {η : Type} [HueSource η]

/-- Whatever a command does to a board is an edit. -/
theorem edited {command : Command} {b b' : Board n} {hues hues' : η} {retained : Bool}
    (h : command.apply b hues retained = some (b', hues')) : b.Edited b' := by
  cases command with
  | color d c =>
      simp only [apply, Option.bind_eq_bind, Option.bind_eq_some_iff] at h
      obtain ⟨b₁, htarget, b₂, hbase, b₃, hbrightness, b₄, hstatus, hend⟩ := h
      obtain ⟨rfl, _⟩ := Prod.mk.inj (Option.some.inj hend)
      exact (Board.edited_setTarget htarget).trans <| (Board.edited_setBase hbase).trans <|
        (Board.edited_setBrightness hbrightness).trans (Board.edited_setStatus hstatus)
  | baseColor d c =>
      simp only [apply, Option.bind_eq_bind, Option.bind_eq_some_iff] at h
      obtain ⟨b₁, hbase, b₂, hdim, hend⟩ := h
      obtain ⟨rfl, _⟩ := Prod.mk.inj (Option.some.inj hend)
      exact (Board.edited_setBase hbase).trans (Board.edited_redim hdim)
  | brightness d value =>
      simp only [apply, Option.bind_eq_bind, Option.bind_eq_some_iff] at h
      obtain ⟨b₁, hbrightness, b₂, hdim, hend⟩ := h
      obtain ⟨rfl, _⟩ := Prod.mk.inj (Option.some.inj hend)
      exact (Board.edited_setBrightness hbrightness).trans (Board.edited_redim hdim)
  | mode d m =>
      simp only [apply, Option.bind_eq_bind, Option.bind_eq_some_iff] at h
      obtain ⟨b₁, hmode, hend⟩ := h
      obtain ⟨rfl, _⟩ := Prod.mk.inj (Option.some.inj hend)
      exact Board.edited_setMode hmode
  | switch d s =>
      simp only [apply, Option.bind_eq_bind, Option.bind_eq_some_iff] at h
      obtain ⟨b₁, hstatus, hend⟩ := h
      obtain ⟨rfl, _⟩ := Prod.mk.inj (Option.some.inj hend)
      exact Board.edited_setStatus hstatus
  | random d =>
      cases retained with
      | true => cases h
      | false =>
          simp only [apply, Option.bind_eq_bind, Bool.false_eq_true, if_false,
            Option.bind_eq_some_iff] at h
          obtain ⟨⟨b₁, hues₁⟩, hrandom, b₂, hstatus, hend⟩ := h
          obtain ⟨rfl, _⟩ := Prod.mk.inj (Option.some.inj hend)
          exact (Board.edited_randomize hrandom).trans (Board.edited_setStatus hstatus)
  | strobe level =>
      cases level with
      | none => cases h
      | some level =>
          obtain ⟨rfl, _⟩ := Prod.mk.inj (Option.some.inj h)
          exact Board.edited_setStrobe b level
  | unrecognized => cases h

end Command

end Luminaire
