import Luminaire.Dmx.Patch
import Luminaire.Proofs.Board.Reach
import Mathlib.Data.Fin.VecNotation
import Mathlib.Tactic.SplitIfs

/-!
# The scene in a universe

What a universe sets on a board is a `Scene`: a target and a mode for every channel and the strobe
level. Each byte of it has a `Role`, and the patch gives every role a slot of its own. The colors,
three slots each, come before the modes, one slot each, and the strobe comes last, so the slots of
a board are a range without a gap. No slot lies beyond that of the strobe, so a machine word that has
room for this one has room for all of them. `roleAt?` goes back from a slot to its role, which is all
that is needed to write a universe for any choice of bytes.

The bytes say more than the scene. Any byte other than zero means the mode that fades, and ten
bytes, or six for the highest level, mean the same strobe level.
-/

namespace Luminaire

namespace Dmx

/-- What a slot is for on a board of `n` channels. -/
inductive Role (n : Nat) where
  | red (i : Fin n)
  | green (i : Fin n)
  | blue (i : Fin n)
  | mode (i : Fin n)
  | strobe
deriving DecidableEq

namespace Role

variable {n : Nat}

/-- Where the slot for a role is, counted from the first slot of the board. -/
def place : Role n → Nat
  | .red i => 3 * i
  | .green i => 3 * i + 1
  | .blue i => 3 * i + 2
  | .mode i => 3 * n + i
  | .strobe => 4 * n

/-- The role of the slot at a place, if it belongs to the board. -/
def at? (n place : Nat) : Option (Role n) :=
  if h : place < 3 * n then
    let i : Fin n := ⟨place / 3, by omega⟩
    if place % 3 = 0 then some (.red i)
    else if place % 3 = 1 then some (.green i)
    else some (.blue i)
  else if h : place - 3 * n < n then some (.mode ⟨place - 3 * n, h⟩)
  else if place = 4 * n then some .strobe
  else none

theorem at?_eq_some_iff (k : Nat) (r : Role n) : at? n k = some r ↔ r.place = k := by
  constructor
  · intro h
    rw [at?] at h
    split_ifs at h <;> obtain rfl := Option.some.inj h <;> simp only [place] <;> omega
  · rintro rfl
    cases r with
    | red i => simp [at?, place]
    | green i =>
        have hplace : 3 * i.val + 1 < 3 * n := by omega
        simp [at?, place, hplace, Nat.mul_add_div]
    | blue i =>
        have hplace : 3 * i.val + 2 < 3 * n := by omega
        simp [at?, place, hplace, Nat.mul_add_div]
    | mode i =>
        have hplace : ¬ 3 * n + i.val < 3 * n := by omega
        simp [at?, place, hplace]
    | strobe =>
        have hplace : ¬ 4 * n < 3 * n := by omega
        have hrest : ¬ 4 * n - 3 * n < n := by omega
        simp [at?, place, hplace, hrest]

theorem exists_place_iff (k : Nat) : (∃ r : Role n, r.place = k) ↔ k ≤ 4 * n := by
  constructor
  · rintro ⟨r, rfl⟩
    cases r <;> simp only [place] <;> omega
  · intro hk
    have hsome : at? n k ≠ none := by
      rw [at?]
      split_ifs <;> first | exact Option.some_ne_none _ | omega
    obtain ⟨r, hr⟩ := Option.ne_none_iff_exists'.1 hsome
    exact ⟨r, (at?_eq_some_iff k r).1 hr⟩

theorem place_injective : Function.Injective (place (n := n)) := by
  intro r r' h
  have hr := (at?_eq_some_iff _ r).2 rfl
  rw [h, (at?_eq_some_iff _ r').2 rfl] at hr
  exact (Option.some.inj hr).symm

end Role

/-- What a universe sets on a board of `n` channels. -/
@[ext]
structure Scene (n : Nat) where
  target : Fin n → Color
  mode : Fin n → FadeMode
  level : UInt8

namespace Scene

variable {n : Nat}

/-- The byte, read in that role, is what the scene has there. -/
def Admits (scene : Scene n) : Role n → UInt8 → Prop
  | .red i, byte => byte = (scene.target i).red
  | .green i, byte => byte = (scene.target i).green
  | .blue i, byte => byte = (scene.target i).blue
  | .mode i, byte => byte = 0 ↔ scene.mode i = .normal
  | .strobe, byte => byte / 10 = scene.level

instance (scene : Scene n) (r : Role n) (byte : UInt8) : Decidable (scene.Admits r byte) :=
  match r with
  | .red i => inferInstanceAs (Decidable (byte = (scene.target i).red))
  | .green i => inferInstanceAs (Decidable (byte = (scene.target i).green))
  | .blue i => inferInstanceAs (Decidable (byte = (scene.target i).blue))
  | .mode i => inferInstanceAs (Decidable (byte = 0 ↔ scene.mode i = .normal))
  | .strobe => inferInstanceAs (Decidable (byte / 10 = scene.level))

/-- The least bytes that say what the scene is. -/
def bytes (scene : Scene n) : Role n → UInt8
  | .red i => (scene.target i).red
  | .green i => (scene.target i).green
  | .blue i => (scene.target i).blue
  | .mode i => (scene.mode i).digit
  | .strobe => scene.level * 10

/-- The board with the scene on it. -/
def stage (scene : Scene n) (b : Board n) : Board n where
  channels := b.channels.mapFinIdx fun i c h =>
    { c with target := scene.target ⟨i, h⟩, mode := scene.mode ⟨i, h⟩ }
  strobe := scene.level
  changed := b.changed

theorem getElem_channels_stage (scene : Scene n) (b : Board n) (i : Nat) (h : i < n) :
    (scene.stage b).channels[i] =
      { b.channels[i] with target := scene.target ⟨i, h⟩, mode := scene.mode ⟨i, h⟩ } := by
  simp [stage]

/-- A board tells which scene is on it. -/
theorem stage_inj {scene scene' : Scene n} (b : Board n) :
    scene.stage b = scene'.stage b ↔ scene = scene' := by
  refine ⟨fun h => ?_, congrArg (stage · b)⟩
  have hchannel : ∀ i : Fin n,
      { b.channels.get i with target := scene.target i, mode := scene.mode i } =
        { b.channels.get i with target := scene'.target i, mode := scene'.mode i } := fun i => by
    have hi := scene.getElem_channels_stage b i i.isLt
    rw [h, getElem_channels_stage] at hi
    exact hi.symm
  refine Scene.ext (funext fun i => ?_) (funext fun i => ?_) (congrArg Board.strobe h)
  · exact congrArg Channel.target (hchannel i)
  · exact congrArg Channel.mode (hchannel i)

end Scene

namespace Patch

variable {n : Nat}

/-- The slot for a role. -/
def slotOf (p : Patch) : Role n → Nat
  | .red i => p.colorSlot i
  | .green i => p.colorSlot i + 1
  | .blue i => p.colorSlot i + 2
  | .mode i => p.modeSlot i n
  | .strobe => p.strobeSlot n

theorem slotOf_eq (p : Patch) (r : Role n) : p.slotOf r = p.start + r.place := by
  cases r <;> simp only [slotOf, Role.place, colorSlot, modeSlot, strobeSlot] <;> omega

theorem slotOf_injective (p : Patch) : Function.Injective (p.slotOf (n := n)) := by
  intro r r' h
  rw [slotOf_eq, slotOf_eq] at h
  exact Role.place_injective (Nat.add_left_cancel h)

theorem exists_slotOf_iff (p : Patch) (k : Nat) :
    (∃ r : Role n, p.slotOf r = k) ↔ p.start ≤ k ∧ k ≤ p.start + 4 * n := by
  constructor
  · rintro ⟨r, rfl⟩
    have hle := (Role.exists_place_iff r.place).1 ⟨r, rfl⟩
    rw [slotOf_eq]
    omega
  · rintro ⟨hstart, hend⟩
    obtain ⟨r, hr⟩ := (Role.exists_place_iff (n := n) (k - p.start)).2 (by omega)
    refine ⟨r, ?_⟩
    rw [slotOf_eq, hr]
    omega

/-- The role of a slot on a board of `n` channels, if it belongs to the board. -/
def roleAt? (p : Patch) (n k : Nat) : Option (Role n) :=
  if p.start ≤ k then Role.at? n (k - p.start) else none

theorem roleAt?_eq_some_iff (p : Patch) (k : Nat) (r : Role n) :
    p.roleAt? n k = some r ↔ p.slotOf r = k := by
  rw [slotOf_eq, roleAt?]
  split
  next hstart =>
    rw [Role.at?_eq_some_iff]
    omega
  next hstart => exact iff_of_false nofun (by omega)

/-- The universe `background` with the bytes of a board written over it. -/
def write (p : Patch) (byte : Role n → UInt8) (background : Array UInt8) : Array UInt8 :=
  Array.ofFn (n := max background.size (p.start + 4 * n + 1)) fun k =>
    ((p.roleAt? n k).map byte).getD (slot background k)

theorem slot_write (p : Patch) (byte : Role n → UInt8) (background : Array UInt8) (k : Nat) :
    slot (p.write byte background) k = ((p.roleAt? n k).map byte).getD (slot background k) := by
  by_cases hk : k < max background.size (p.start + 4 * n + 1)
  · simp [slot, write, Array.getD, hk]
  · have hnone : p.roleAt? n k = none := by
      refine Option.eq_none_iff_forall_ne_some.2 fun r hr => ?_
      have hrange := (p.exists_slotOf_iff k).1 ⟨r, (p.roleAt?_eq_some_iff k r).1 hr⟩
      omega
    have hsize : ¬ k < background.size := by omega
    simp [slot, write, Array.getD, hk, hsize, hnone]

/-- Whatever bytes a board is to get, there is a universe that has them in their slots, and any other
bytes elsewhere. -/
theorem exists_slots (p : Patch) (byte : Role n → UInt8) (background : Array UInt8) :
    ∃ slots : Array UInt8, (∀ r, slot slots (p.slotOf r) = byte r) ∧
      ∀ k, (∀ r : Role n, p.slotOf r ≠ k) → slot slots k = slot background k := by
  refine ⟨p.write byte background, fun r => ?_, fun k hk => ?_⟩
  · rw [slot_write, (p.roleAt?_eq_some_iff _ r).2 rfl]
    rfl
  · have hnone : p.roleAt? n k = none :=
      Option.eq_none_iff_forall_ne_some.2 fun r hr => hk r ((p.roleAt?_eq_some_iff k r).1 hr)
    rw [slot_write, hnone]
    rfl

/-- The scene in a universe. -/
def scene (p : Patch) (n : Nat) (slots : Array UInt8) : Scene n where
  target i := p.color slots i
  mode i := p.mode slots i n
  level := p.strobe slots n

theorem apply_eq_stage (p : Patch) (slots : Array UInt8) (b : Board n) :
    p.apply slots b = (p.scene n slots).stage b := by
  refine Board.ext_channels (fun i h => ?_) rfl rfl
  rw [getElem_channels_apply, Scene.getElem_channels_stage]
  rfl

theorem mode_eq_iff (p : Patch) (slots : Array UInt8) (i : Nat) (m : FadeMode) :
    p.mode slots i n = m ↔ (slot slots (p.modeSlot i n) = 0 ↔ m = .normal) := by
  rw [mode]
  split
  next h => cases m <;> simp [h]
  next h => cases m <;> simp [h]

/-- The bytes of a universe say what the scene in it is. -/
theorem scene_eq_iff (p : Patch) (slots : Array UInt8) (scene : Scene n) :
    p.scene n slots = scene ↔ ∀ r, scene.Admits r (slot slots (p.slotOf r)) := by
  constructor
  · rintro rfl r
    cases r with
    | mode i => exact (p.mode_eq_iff slots i _).1 rfl
    | _ => rfl
  · intro h
    refine Scene.ext (funext fun i => ?_) (funext fun i => ?_) (h .strobe)
    · have hred : slot slots (p.colorSlot i) = (scene.target i).red := h (.red i)
      have hgreen : slot slots (p.colorSlot i + 1) = (scene.target i).green := h (.green i)
      have hblue : slot slots (p.colorSlot i + 2) = (scene.target i).blue := h (.blue i)
      show p.color slots i = _
      rw [color, hred, hgreen, hblue]
    · exact (p.mode_eq_iff slots i _).2 (h (.mode i))

theorem scene_congr (p : Patch) {slots slots' : Array UInt8}
    (h : ∀ r : Role n, slot slots (p.slotOf r) = slot slots' (p.slotOf r)) :
    p.scene n slots = p.scene n slots' := by
  rw [scene_eq_iff]
  simp only [h]
  rw [← scene_eq_iff]

end Patch

theorem div_strobeDivisor_le (byte : UInt8) : byte / 10 ≤ 25 := by
  have hbyte := byte.toNat_lt
  rw [UInt8.le_iff_toNat_le, UInt8.toNat_div]
  show byte.toNat / 10 ≤ 25
  omega

theorem mul_strobeDivisor_div {level : UInt8} (h : level ≤ 25) : level * 10 / 10 = level := by
  have hlevel : level.toNat ≤ 25 := UInt8.le_iff_toNat_le.1 h
  apply UInt8.toNat_inj.1
  rw [UInt8.toNat_div, UInt8.toNat_mul]
  show level.toNat * 10 % 2 ^ 8 / 10 = level.toNat
  omega

/-- Any scene can be written in bytes if its strobe level is one that a byte can stand for. -/
theorem Scene.exists_bytes_iff {n : Nat} (scene : Scene n) :
    (∃ byte : Role n → UInt8, ∀ r, scene.Admits r (byte r)) ↔ scene.level ≤ 25 := by
  constructor
  · rintro ⟨byte, hadmits⟩
    rw [← hadmits .strobe]
    exact div_strobeDivisor_le _
  · intro hlevel
    refine ⟨scene.bytes, fun r => ?_⟩
    cases r with
    | mode i =>
        show (scene.mode i).digit = 0 ↔ scene.mode i = .normal
        cases scene.mode i <;> simp [FadeMode.digit]
    | strobe => exact mul_strobeDivisor_div hlevel
    | _ => rfl

/-- The slots of a board are different and fill a range. A universe sets a scene on a board exactly if
the bytes in these slots say so, whatever stands elsewhere, and for each scene whose strobe level does
not exceed 25, and any bytes that say it, there are such universes. Universes that agree on the slots
of a board have the same effect on it, where a slot that was not sent counts as zero. Nothing but
targets, modes and strobe level changes. -/
theorem universe_encodes_scene (p : Patch) (n : Nat) :
    Function.Injective (p.slotOf (n := n)) ∧
    (∀ k, (∃ r : Role n, p.slotOf r = k) ↔ p.start ≤ k ∧ k ≤ p.start + 4 * n) ∧
    (∀ scene : Scene n,
      (∃ byte : Role n → UInt8, ∀ r, scene.Admits r (byte r)) ↔ scene.level ≤ 25) ∧
    (∀ (byte : Role n → UInt8) (background : Array UInt8), ∃ slots : Array UInt8,
      (∀ r, slot slots (p.slotOf r) = byte r) ∧
      ∀ k, (∀ r : Role n, p.slotOf r ≠ k) → slot slots k = slot background k) ∧
    (∀ (scene : Scene n) (slots : Array UInt8) (b : Board n),
      p.apply slots b = scene.stage b ↔ ∀ r, scene.Admits r (slot slots (p.slotOf r))) ∧
    (∀ slots slots' : Array UInt8,
      (∀ k, p.start ≤ k → k ≤ p.start + 4 * n → slot slots k = slot slots' k) →
      ∀ b : Board n, p.apply slots b = p.apply slots' b) ∧
    ∀ (slots : Array UInt8) (b : Board n),
      (p.apply slots b).changed = b.changed ∧
      ∀ i (h : i < n), ∃ target mode,
        (p.apply slots b).channels[i] = { b.channels[i] with target := target, mode := mode } := by
  refine ⟨p.slotOf_injective, p.exists_slotOf_iff, Scene.exists_bytes_iff, p.exists_slots,
    fun scene slots b => ?_, fun slots slots' hagree b => ?_, fun slots b => ⟨rfl, fun i h => ?_⟩⟩
  · rw [← p.scene_eq_iff, p.apply_eq_stage, Scene.stage_inj]
  · rw [p.apply_eq_stage, p.apply_eq_stage]
    refine congrArg (Scene.stage · b) (p.scene_congr fun r => ?_)
    obtain ⟨hstart, hend⟩ := (p.exists_slotOf_iff (p.slotOf r)).1 ⟨r, rfl⟩
    exact hagree _ hstart hend
  · exact ⟨_, _, p.getElem_channels_apply slots b i h⟩

/-- Red and blue from the third slot on, and a universe that ends before the modes. -/
theorem universe_encodes_scene_short :
    let p : Patch := ⟨2⟩
    let b := Board.powerUp 2
    let scene : Scene 2 := ⟨![⟨255, 0, 0⟩, ⟨0, 0, 255⟩], ![.normal, .fade], 12⟩
    let slots : Array UInt8 := #[9, 9, 255, 0, 0, 0, 0, 255, 0, 7, 129, 77]
    let short : Array UInt8 := #[0, 0, 255, 0, 0, 0, 0, 255]
    let padded : Array UInt8 := #[5, 5, 255, 0, 0, 0, 0, 255, 0, 0, 0]
    (∀ r, scene.Admits r (slot slots (p.slotOf r))) ∧ p.apply slots b = scene.stage b ∧
      (∀ k, 2 ≤ k → k ≤ 2 + 4 * 2 → slot short k = slot padded k) ∧
      p.apply short b = p.apply padded b ∧
      (∀ r : Role 2, p.slotOf r ≠ 11) ∧
      ∃ slots' : Array UInt8, (∀ r : Role 2, slot slots' (p.slotOf r) = 1) ∧ slot slots' 11 = 77 := by
  intro p b scene slots short padded
  obtain ⟨-, hrange, -, hwrite, happly, hagree, -⟩ := universe_encodes_scene p 2
  have hadmits : ∀ r, scene.Admits r (slot slots (p.slotOf r)) := by
    intro r
    cases r with
    | red i => revert i; decide
    | green i => revert i; decide
    | blue i => revert i; decide
    | mode i => revert i; decide
    | strobe => decide
  have hsame : ∀ k, 2 ≤ k → k ≤ 2 + 4 * 2 → slot short k = slot padded k := by
    have hbelow : ∀ k < 11, 2 ≤ k → slot short k = slot padded k := by decide
    exact fun k hstart hend => hbelow k (Nat.lt_succ_of_le hend) hstart
  have houtside : ∀ r : Role 2, p.slotOf r ≠ 11 := fun r hr =>
    absurd ((hrange 11).1 ⟨r, hr⟩).2 (by decide)
  obtain ⟨slots', hslots', hothers⟩ := hwrite (fun _ => 1) slots
  exact ⟨hadmits, (happly scene slots b).2 hadmits, hsame, hagree short padded hsame b, houtside,
    slots', hslots', hothers 11 houtside⟩

end Dmx

end Luminaire
