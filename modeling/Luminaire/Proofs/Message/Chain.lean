import Luminaire.Proofs.Message.Outcome
import Luminaire.Proofs.Message.Reading

/-!
# All or nothing

`Command.apply` has no board to go on with as soon as one operation of a command is refused. A
node has only the one board, and what the operations before the refusal did to it would stay. That
is `carryOut`, where the links of a chain work in place. The two agree because no chain breaks in
the middle: the links of a chain have the same destination and the same origin, and whether a link
takes effect depends on nothing else (`isSome_of_mem_chain`).
-/

namespace Luminaire

section Links

variable {σ : Type}

/-- The state after all links, unless one of them is refused. -/
def chained? : List (σ → Option σ) → σ → Option σ
  | [], s => some s
  | link :: rest, s => (link s).bind (chained? rest)

/-- Carry out links in place up to the first that is refused. Returns whether none was. -/
def carryOut : List (σ → Option σ) → σ → Bool × σ
  | [], s => (true, s)
  | link :: rest, s =>
      match link s with
      | none => (false, s)
      | some s => carryOut rest s

theorem carryOut_of_chained? {links : List (σ → Option σ)} {s s' : σ}
    (h : chained? links s = some s') : carryOut links s = (true, s') := by
  induction links generalizing s with
  | nil =>
      obtain rfl : s = s' := Option.some.inj h
      rfl
  | cons link rest ih =>
      obtain ⟨s₁, hlink, hrest⟩ := Option.bind_eq_some_iff.1 h
      rw [carryOut, hlink]
      exact ih hrest

theorem exists_chained? {links : List (σ → Option σ)}
    (h : ∀ link : σ → Option σ, link ∈ links → ∀ s, (link s).isSome = true) (s : σ) :
    ∃ s', chained? links s = some s' := by
  induction links generalizing s with
  | nil => exact ⟨s, rfl⟩
  | cons link rest ih =>
      obtain ⟨hlink, hrest⟩ := List.forall_mem_cons.1 h
      obtain ⟨s₁, hs₁⟩ := Option.isSome_iff_exists.1 (hlink s)
      obtain ⟨s', hs'⟩ := ih hrest s₁
      exact ⟨s', by rw [chained?, hs₁, Option.bind_some, hs']⟩

/-- If links agree on whether they take effect, the first refusal comes before any effect. -/
theorem carryOut_of_agree {links : List (σ → Option σ)} {takes : Bool}
    (h : ∀ link : σ → Option σ, link ∈ links → ∀ s, (link s).isSome = takes) (s : σ) :
    carryOut links s =
      match chained? links s with
      | none => (false, s)
      | some s' => (true, s') := by
  cases takes with
  | true =>
      obtain ⟨s', hs'⟩ := exists_chained? h s
      rw [carryOut_of_chained? hs', hs']
  | false =>
      cases links with
      | nil => rfl
      | cons link rest =>
          have hrefused : link s = none :=
            Option.not_isSome_iff_eq_none.1 (by simp [h link List.mem_cons_self s])
          rw [carryOut, chained?, hrefused]
          rfl

end Links

namespace Board

variable {n : Nat} {η : Type}

/-- An operation on the board that draws no hues. -/
def link (operation : Board n → Option (Board n)) : Board n × η → Option (Board n × η)
  | (b, hues) => (operation b).map fun b => (b, hues)

@[simp] theorem isSome_link (operation : Board n → Option (Board n)) (s : Board n × η) :
    (link operation s).isSome = (operation s.1).isSome := by
  rw [link, Option.isSome_map]

@[simp] theorem isSome_update (b : Board n) (d : Destination) (replayed : Bool)
    (f : Channel → Channel) : (b.update d replayed f).isSome = d.accepted n replayed := by
  rw [update_eq_ite]
  cases d.accepted n replayed <;> rfl

@[simp] theorem isSome_randomize [HueSource η] (b : Board n) (d : Destination) (hues : η) :
    (b.randomize d hues).isSome = d.accepted n false := by
  rw [randomize_eq_ite]
  cases d.accepted n false <;> rfl

@[simp] theorem isSome_setStatus (b : Board n) (d : Destination) (status : Status)
    (replayed : Bool) : (b.setStatus d status replayed).isSome = d.accepted n replayed := by
  rw [setStatus, Option.isSome_map, isSome_update]

end Board

namespace Command

variable {n : Nat} {η : Type} [HueSource η]

/-- The operations that a command consists of. A command that is ignored is a single refusal. -/
def chain (retained : Bool) : Command → List (Board n × η → Option (Board n × η))
  | .color d shade =>
      [Board.link fun b => b.setTarget d shade retained,
        Board.link fun b => b.setBase d shade retained,
        Board.link fun b => b.setBrightness d 255 retained,
        Board.link fun b => b.setStatus d (Status.ofColor shade) retained]
  | .baseColor d shade =>
      [Board.link fun b => b.setBase d shade retained, Board.link fun b => b.redim d retained]
  | .brightness d value =>
      [Board.link fun b => b.setBrightness d value retained,
        Board.link fun b => b.redim d retained]
  | .mode d m => [Board.link fun b => b.setMode d m retained]
  | .switch d status => [Board.link fun b => b.setStatus d status retained]
  | .random d =>
      if retained then [fun _ => none]
      else
        [fun (b, hues) => b.randomize d hues, Board.link fun b => b.setStatus d .on false]
  | .strobe (some level) => [fun (b, hues) => some (b.setStrobe level, hues)]
  | .strobe none => [fun _ => none]
  | .unrecognized => [fun _ => none]

/-- Without a refusal the links lead to the board after the command. -/
theorem apply_eq_chained? (command : Command) (b : Board n) (hues : η) (retained : Bool) :
    command.apply b hues retained = chained? (command.chain retained) (b, hues) := by
  have hlink : ∀ (operation : Option (Board n)) (rest : Board n × η → Option (Board n × η)),
      (operation.map fun b => (b, hues)).bind rest = operation.bind fun b => rest (b, hues) :=
    fun _ _ => Option.bind_map
  cases command with
  | color d shade =>
      simp only [apply, chain, chained?, Board.link, Option.bind_eq_bind, hlink]
      rfl
  | baseColor d shade =>
      simp only [apply, chain, chained?, Board.link, Option.bind_eq_bind, hlink]
      rfl
  | brightness d value =>
      simp only [apply, chain, chained?, Board.link, Option.bind_eq_bind, hlink]
      rfl
  | mode d m =>
      simp only [apply, chain, chained?, Board.link, Option.bind_eq_bind, hlink]
      rfl
  | switch d status =>
      simp only [apply, chain, chained?, Board.link, Option.bind_eq_bind, hlink]
      rfl
  | random d =>
      cases retained with
      | true => rfl
      | false =>
          refine Option.bind_congr fun s _ => ?_
          show _ = (Option.map _ _).bind _
          rw [Option.bind_map]
          rfl
  | strobe level => cases level <;> rfl
  | unrecognized => rfl

/-- Whether a link takes effect does not depend on what the links before it did. -/
theorem isSome_of_mem_chain (command : Command) (retained : Bool) :
    ∀ link : Board n × η → Option (Board n × η), link ∈ command.chain retained →
      ∀ s, (link s).isSome = command.accepted n retained := by
  cases command with
  | color d shade =>
      simp [chain, accepted, Board.setTarget, Board.setBase, Board.setBrightness]
  | baseColor d shade => simp [chain, accepted, Board.setBase, Board.redim]
  | brightness d value => simp [chain, accepted, Board.setBrightness, Board.redim]
  | mode d m => simp [chain, accepted, Board.setMode]
  | switch d status => simp [chain, accepted]
  | random d => cases retained <;> simp [chain, accepted]
  | strobe level => cases level <;> simp [chain, accepted]
  | unrecognized => simp [chain, accepted]

theorem carryOut_chain (command : Command) (b : Board n) (hues : η) (retained : Bool) :
    carryOut (command.chain retained) (b, hues) =
      match command.apply b hues retained with
      | none => (false, b, hues)
      | some s => (true, s) := by
  rw [carryOut_of_agree (command.isSome_of_mem_chain retained), apply_eq_chained?]
  cases chained? (command.chain retained) (b, hues) <;> rfl

end Command

namespace Board

variable {n : Nat} {η : Type} [HueSource η]

/-- A message carried out in place. Returns the command, if none of its operations was refused. -/
def hear (b : Board n) (hues : η) (root topic : String) (payload : ByteArray) (retained : Bool) :
    Option Command × Board n × η :=
  match Command.parse root n topic payload with
  | .error _ => (none, b, hues)
  | .ok command =>
      match carryOut (command.chain retained) (b, hues) with
      | (true, s) => (some command, s)
      | (false, s) => (none, s)

theorem hear_eq (b : Board n) (hues : η) (root topic : String) (payload : ByteArray)
    (retained : Bool) :
    b.hear hues root topic payload retained =
      match b.receive hues root topic payload retained with
      | none => (none, b, hues)
      | some (command, s) => (some command, s) := by
  rw [hear, receive]
  cases Command.parse root n topic payload with
  | error e => rfl
  | ok command =>
      simp only [Command.carryOut_chain]
      cases command.apply b hues retained <;> rfl

end Board

end Luminaire
