import Luminaire.Color.Random
import Mathlib.Logic.Function.Iterate

/-!
# Hues in a row

A source is drawn from by one step that yields a hue and the source after it. So everything about
hues in a row is said by the source `after` some draws and the `hue` that it yields next, and drawing
several hues at once is the same as drawing them one by one.
-/

namespace Luminaire

namespace HueSource

variable {η : Type} [HueSource η]

/-- The source after that many draws. -/
def after (draws : Nat) (hues : η) : η := (fun hues => (next hues).2)^[draws] hues

/-- The hue that comes after that many draws. -/
def hue (draws : Nat) (hues : η) : Float := (next (after draws hues)).1

theorem after_succ (draws : Nat) (hues : η) :
    after (draws + 1) hues = (next (after draws hues)).2 :=
  Function.iterate_succ_apply' _ draws hues

theorem snd_draw (n : Nat) (hues : η) : (draw n hues).2 = after n hues := by
  induction n with
  | zero => rfl
  | succ n ih => rw [draw_succ, after_succ, ih]

theorem getElem_draw (n : Nat) (hues : η) (i : Nat) (h : i < n) :
    (draw n hues).1[i] = hue i hues := by
  induction n with
  | zero => exact absurd h (Nat.not_lt_zero i)
  | succ n ih =>
      simp only [draw_succ, Vector.getElem_push, snd_draw]
      split
      next hi => exact ih hi
      next hi =>
        obtain rfl : i = n := by omega
        rfl

end HueSource

end Luminaire
