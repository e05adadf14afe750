import Luminaire.Proofs.Board.Fading
import Luminaire.Proofs.Broker.Reliable
import Luminaire.Proofs.Message.Report
import Luminaire.Proofs.Node.Dimming

/-!
# What observers know restores a channel

The broker keeps what a node tells of a channel, so a node that comes back with nothing can be set
to what it was before: base color, brightness, mode and status are sent to it as commands. The
target is not told, and need not be. On a board that is set by messages it follows from base color
and brightness, and either of the two commands dims anew, so it follows again whichever comes last.
For the same reason the four commands commute (`restore_comm`), and the order in which the broker
hands over what it keeps makes no difference.
-/

namespace Luminaire

/-- A message as the broker hands it over. -/
structure Delivery where
  topic : String
  payload : ByteArray
  /-- The broker repeats it from its store. -/
  retained : Bool

namespace Board

variable {n : Nat} {η : Type} [HueSource η]

/-- The commands that some messages are, and the board and the hues after them. There is no result
if one of the messages is dropped. -/
def receiveAll? (root : String) : List Delivery → Board n → η → Option (List Command × Board n × η)
  | [], b, hues => some ([], b, hues)
  | m :: rest, b, hues =>
      (b.receive hues root m.topic m.payload m.retained).bind fun (command, b, hues) =>
        (receiveAll? root rest b hues).map fun (commands, s) => (command :: commands, s)

theorem receiveAll?_cons (root : String) (m : Delivery) (rest : List Delivery) (b : Board n)
    (hues : η) :
    receiveAll? root (m :: rest) b hues =
      (b.receive hues root m.topic m.payload m.retained).bind fun (command, b, hues) =>
        (receiveAll? root rest b hues).map fun (commands, s) => (command :: commands, s) := rfl

end Board

namespace Attribute

/-- The attributes from which a channel can be set up anew: all but the color that it shows. -/
def snapshot : List Attribute := [baseColor, brightness, mode, status]

/-- The report of the attribute, as a message that sets it. -/
def delivery (root : String) (number : Nat) (c : Channel) (retained : Bool) (a : Attribute) :
    Delivery where
  topic := a.commandTopic root number
  payload := (a.report c).toUTF8
  retained := retained

/-- The channel `d` after it was commanded to have the attribute as `c` has it. -/
def restore (i : Nat) (c d : Channel) (a : Attribute) : Channel := (a.command i c).touch d.base d

theorem restore_comm {a a' : Attribute} (ha : a ∈ snapshot) (ha' : a' ∈ snapshot) (i : Nat)
    (c d : Channel) : restore i c (restore i c d a) a' = restore i c (restore i c d a') a := by
  cases a <;> cases a' <;> first | rfl | exact absurd ha (by decide) | exact absurd ha' (by decide)

/-- A snapshot in any order leaves a new channel as it was told, with the target that goes with
it. -/
theorem goal_restore_snapshot {order : List Attribute} (horder : order.Perm snapshot) (i : Nat)
    (c : Channel) :
    (order.foldl (restore i c) Channel.powerUp).goal =
      { c.goal with target := c.base.dim c.brightness } := by
  have hcomm : ∀ a ∈ order, ∀ a' ∈ order, ∀ d,
      restore i c (restore i c d a) a' = restore i c (restore i c d a') a :=
    fun a ha a' ha' => restore_comm (horder.mem_iff.1 ha) (horder.mem_iff.1 ha') i c
  rw [horder.foldl_eq' hcomm]
  rfl

end Attribute

namespace Board

variable {n : Nat} {η : Type} [HueSource η]

/-- A report of a channel that exists is not dropped, replayed or not. -/
theorem receive_report {i : Nat} (hi : i < n) (hnumber : i < 99) (root : String) (c : Channel)
    (retained : Bool) (a : Attribute) (b : Board n) (hues : η) :
    b.receive hues root (a.commandTopic root (i + 1)) (a.report c).toUTF8 retained =
      some (a.command i c, (a.command i c).outcome b hues, hues) := by
  have haccepted : (a.command i c).accepted n retained = true := by
    cases a <;> exact decide_eq_true hi
  have hhues : (a.command i c).huesAfter n hues = hues := by cases a <;> rfl
  rw [receive, Command.parse_report hi hnumber c a]
  simp only [Command.apply_eq_ite, haccepted, hhues, if_true, Option.map_some]

/-- The board after the reports of some attributes of a channel. -/
def restored (i : Nat) (c : Channel) (order : List Attribute) (b : Board n) (hues : η) : Board n :=
  order.foldl (fun b a => (a.command i c).outcome b hues) b

theorem receiveAll?_reports {i : Nat} (hi : i < n) (hnumber : i < 99) (root : String) (c : Channel)
    (retained : Attribute → Bool) (order : List Attribute) (b : Board n) (hues : η) :
    receiveAll? root (order.map fun a => a.delivery root (i + 1) c (retained a)) b hues =
      some (order.map fun a => a.command i c, b.restored i c order hues, hues) := by
  induction order generalizing b with
  | nil => rfl
  | cons a rest ih =>
      rw [List.map_cons, receiveAll?_cons, Attribute.delivery,
        receive_report hi hnumber root c (retained a) a b hues, Option.bind_some]
      simp only [ih, Option.map_some]
      rfl

theorem getElem_channels_restored (i : Nat) (c : Channel) (order : List Attribute) (b : Board n)
    (hues : η) (j : Nat) (hj : j < n) :
    (b.restored i c order hues).channels[j] =
      if i = j then order.foldl (Attribute.restore i c) b.channels[j] else b.channels[j] := by
  induction order generalizing b with
  | nil => simp [restored]
  | cons a rest ih =>
      have hreaches : (a.command i c).reaches j = (i == j) := by
        rw [Command.reaches, Attribute.destination?_command]
        rfl
      have hchannel : ((a.command i c).outcome b hues).channels[j] =
          if i = j then Attribute.restore i c b.channels[j] a else b.channels[j] := by
        rw [Command.getElem_channels_outcome, hreaches]
        cases a <;> simp [Attribute.restore] <;> rfl
      rw [restored, List.foldl_cons]
      refine (ih _).trans ?_
      rw [hchannel]
      split <;> rfl

end Board

theorem Channel.advance_powerUp : powerUp.advance = powerUp := by decide

namespace Session

variable {n : Nat} {η θ τ : Type}

/-- What a node tells of a channel that has settled restores it. The publisher hands over one report
for each attribute, and each report that comes back is the command for that channel with the very
value that was told. Base color, brightness, mode and status, handed to a new board in any order and
replayed or not, are all carried out, and 255 ticks later the channel shows what it showed and is set
to what it was set to, while all others are as after power-up. -/
theorem snapshot_restores [HueSource η] [HueSource θ] [Transport τ] (settings : Settings)
    (options : Options) (hues : η) (events : List (Event θ τ)) (s : Session n η)
    (hset : Along SetByMessages (powerUp n settings options hues) events)
    (hrun : (powerUp n settings options hues).run? events = some s) (i : Nat) (h : i < n)
    (hnumber : i < 99)
    (hsettled : s.node.board.channels[i].current = s.node.board.channels[i].target)
    (root : String) (topic : Attribute → Topic)
    (htopic : ∀ a : Attribute, Topic.state root (i + 1) a.word = .ok (topic a)) :
    let c := s.node.board.channels[i]
    (∀ t : τ, Transport.Reliable t →
      (Publisher.sendChannel root (i + 1) c (⟨t, []⟩ : Recorded τ)).2.calls.map Call.request =
        Attribute.all.map fun a => .publish (topic a) (a.report c) Publisher.retain) ∧
    (∀ a : Attribute, Command.parse root n (a.commandTopic root (i + 1)) (a.report c).toUTF8 =
      .ok (a.command i c)) ∧
    ∀ (order : List Attribute) (retained : Attribute → Bool) (fresh : η),
      order.Perm [.baseColor, .brightness, .mode, .status] →
      ∃ b, (Board.powerUp n).receiveAll? root
          (order.map fun a => a.delivery root (i + 1) c (retained a)) fresh =
            some (order.map fun a => a.command i c, b, fresh) ∧
        (Board.advance^[255] b).channels[i].current = c.current ∧
        (Board.advance^[255] b).channels[i].goal = c.goal ∧
        ∀ j (hj : j < n), j ≠ i → (Board.advance^[255] b).channels[j] = Channel.powerUp := by
  intro c
  have hdimmed : s.node.board.Dimmed :=
    run?_invariant (fun _ _ _ hset h hstep => dimmed_step h hset hstep) hset
      Board.dimmed_powerUp hrun
  refine ⟨fun t ht => ?_, Command.parse_report h hnumber c,
    fun order retained fresh horder => ?_⟩
  · exact Publisher.requests_sendAttributes htopic c Attribute.all (r := ⟨t, []⟩) ht
  refine ⟨_, Board.receiveAll?_reports h hnumber root c retained order _ fresh, ?_⟩
  have hnew : ∀ j (hj : j < n), (Board.powerUp n).channels[j] = Channel.powerUp := fun j hj =>
    Vector.getElem_replicate hj
  have hgoal : ((Board.powerUp n).restored i c order fresh).channels[i].goal = c.goal := by
    rw [Board.getElem_channels_restored, if_pos rfl, hnew i h,
      Attribute.goal_restore_snapshot horder, ← hdimmed i h]
    rfl
  refine ⟨?_, ?_, fun j hj hji => ?_⟩
  · rw [Board.getElem_channels_iterate_advance, Channel.current_iterate_advance _ (Nat.le_refl _),
      hsettled]
    exact congrArg Goal.target hgoal
  · rw [Board.getElem_channels_iterate_advance, Channel.goal_iterate_advance, hgoal]
  · rw [Board.getElem_channels_iterate_advance, Board.getElem_channels_restored,
      if_neg (Ne.symm hji), hnew j hj, Function.iterate_fixed Channel.advance_powerUp]

theorem snapshot_restores_amber :
    ∃ (s : Session 2 SplitMix) (b : Board 2),
      (powerUp 2 Settings.blank Options.standard ⟨0⟩).run?
        ([.receive "/set/2/bcolor" "ff8000".toUTF8 false,
          .receive "/set//bright" "128".toUTF8 false,
          .receive "/set/2/switch" "1".toUTF8 false, .process] :
            List (Event SplitMix Steady)) = some s ∧
      (Board.powerUp 2).receiveAll? "hall"
          [⟨"hall/set/2/switch", "1".toUTF8, true⟩, ⟨"hall/set/2/bright", "128".toUTF8, true⟩,
            ⟨"hall/set/2/mode", "0".toUTF8, false⟩,
            ⟨"hall/set/2/bcolor", "FF8000".toUTF8, true⟩] (⟨7⟩ : SplitMix) =
        some ([.switch (.channel 1) .on, .brightness (.channel 1) 128,
          .mode (.channel 1) .normal, .baseColor (.channel 1) ⟨255, 128, 0⟩], b, ⟨7⟩) ∧
      ((Board.advance^[255] b).channels.get 1).current = ⟨128, 64, 0⟩ ∧
      (Board.advance^[255] b).channels.get 0 = Channel.powerUp := by
  let events : List (Event SplitMix Steady) :=
    [.receive "/set/2/bcolor" "ff8000".toUTF8 false, .receive "/set//bright" "128".toUTF8 false,
      .receive "/set/2/switch" "1".toUTF8 false, .process]
  have hset : Along SetByMessages
      (powerUp 2 Settings.blank Options.standard (⟨0⟩ : SplitMix)) events := by
    refine .cons ⟨nofun, False.elim⟩ rfl (.cons ⟨nofun, False.elim⟩ rfl ?_)
    exact .cons ⟨nofun, False.elim⟩ rfl (.cons ⟨nofun, fun _ => rfl⟩ rfl trivial)
  have htopics : ∀ a : Attribute, ∃ topic, Topic.state "hall" 2 a.word = .ok topic := by
    intro a
    cases a <;> exact ⟨_, rfl⟩
  choose topic htopic using htopics
  obtain ⟨_, _, hrestore⟩ := snapshot_restores Settings.blank Options.standard (⟨0⟩ : SplitMix)
    events _ hset rfl 1 (by decide) (by decide) (by decide +kernel) "hall" topic htopic
  obtain ⟨b, hreceive, hcurrent, _, hothers⟩ := hrestore [.status, .brightness, .mode, .baseColor]
    (fun a => decide (a ≠ .mode)) (⟨7⟩ : SplitMix) (by decide)
  refine ⟨_, b, rfl, Eq.trans ?_ (hreceive.trans ?_), hcurrent.trans ?_,
    hothers 0 (by decide) (by decide)⟩
  · refine congrArg (fun deliveries => Board.receiveAll? "hall" deliveries _ _) ?_
    simp only [List.map_cons, List.map_nil, Attribute.delivery, List.cons.injEq, Delivery.mk.injEq]
    decide +kernel
  · refine congrArg (fun commands => some (commands, b, (⟨7⟩ : SplitMix))) ?_
    decide +kernel
  · decide +kernel

end Session

end Luminaire
