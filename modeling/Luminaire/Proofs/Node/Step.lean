import Luminaire.Proofs.Board.Edit
import Luminaire.Proofs.Node.Session

/-!
# What a step changes

A step of the lamps changes the board in two places, where a universe is read and where the
channels advance. A step of the broker takes the pending flag from at most one channel, the first
one that is pending, and only if all of its messages were accepted. Everything else that comes
from outside is an edit of the board. The rest of the node stays, as far as boards and outputs
depend on it.
-/

namespace Luminaire

namespace Node

variable {n : Nat} {η τ : Type}

theorem board_readDmx (node : Node n η) :
    node.readDmx.board = node.board ∨
      ∃ slots, node.inbox.take.1 = some slots ∧ node.options.dmx = true ∧
        node.readDmx.board = node.patch.apply slots node.board := by
  rw [readDmx]
  split
  next hdmx =>
    split
    next => exact Or.inl rfl
    next slots inbox htake => exact Or.inr ⟨slots, by rw [htake], hdmx, rfl⟩
  next => exact Or.inl rfl

/-- A universe is waiting that the next step of the lamps takes. -/
def hasUniverse (node : Node n η) : Bool := node.options.dmx && node.inbox.hasNew

theorem board_readDmx_of_quiet {node : Node n η} (h : node.hasUniverse = false) :
    node.readDmx.board = node.board := by
  rcases node.board_readDmx with hsame | ⟨slots, htake, hdmx, _⟩
  · exact hsame
  · have hnew : node.inbox.hasNew = true := by
      obtain ⟨_, hwaiting, _⟩ := Option.map_eq_some_iff.1 htake
      exact Option.isSome_iff_exists.2 ⟨_, hwaiting⟩
    rw [hasUniverse, hdmx, hnew] at h
    cases h

theorem output_readDmx (node : Node n η) : node.readDmx.output = node.output := by
  rw [readDmx]
  split
  · split <;> rfl
  · rfl

theorem settings_readDmx (node : Node n η) : node.readDmx.settings = node.settings := by
  rw [readDmx]
  split
  · split <;> rfl
  · rfl

theorem tickStrobe_eq (node : Node n η) :
    ∃ strobe, node.tickStrobe.2 = { node with strobe := strobe } := by
  rw [tickStrobe]
  split
  · exact ⟨node.strobe, rfl⟩
  · exact ⟨_, rfl⟩

theorem board_process (node : Node n η) : node.process.2.board = node.readDmx.board.advance := by
  obtain ⟨strobe, hstrobe⟩ := node.readDmx.advance.tickStrobe_eq
  rw [process, hstrobe]
  rfl

theorem output_process (node : Node n η) : node.process.2.output = node.output := by
  obtain ⟨strobe, hstrobe⟩ := node.readDmx.advance.tickStrobe_eq
  rw [process, hstrobe]
  exact node.output_readDmx

theorem settings_process (node : Node n η) : node.process.2.settings = node.settings := by
  obtain ⟨strobe, hstrobe⟩ := node.readDmx.advance.tickStrobe_eq
  rw [process, hstrobe]
  exact node.settings_readDmx

/-- What comes from outside edits the board and leaves outputs and settings. -/
structure Edited (node node' : Node n η) : Prop where
  board : node.board.Edited node'.board
  output : node'.output = node.output
  settings : node'.settings = node.settings

theorem edited_receive [HueSource η] (node : Node n η) (topic : String) (payload : ByteArray)
    (retained : Bool) : node.Edited (node.receive topic payload retained).2 := by
  rw [receive]
  split
  next => exact ⟨Board.Edited.refl node.board, rfl, rfl⟩
  next command board hues hreceive =>
    refine ⟨?_, rfl, rfl⟩
    rw [Board.receive] at hreceive
    split at hreceive
    next => cases hreceive
    next =>
      obtain ⟨⟨board', hues'⟩, happly, heq⟩ := Option.map_eq_some_iff.1 hreceive
      obtain ⟨rfl, rfl, rfl⟩ := heq
      exact Command.edited happly

end Node

namespace Operation

variable {n : Nat} {θ : Type} [HueSource θ]

theorem edited_of_result? {op : Operation θ} {b b' : Board n} (h : op.result? b = some b') :
    b.Edited b' := by
  cases op with
  | setTarget d color replayed => exact Board.edited_setTarget h
  | setBase d color replayed => exact Board.edited_setBase h
  | redim d replayed => exact Board.edited_redim h
  | setBrightness d brightness replayed => exact Board.edited_setBrightness h
  | setMode d mode replayed => exact Board.edited_setMode h
  | setStatus d status replayed => exact Board.edited_setStatus h
  | randomize d hues =>
      obtain ⟨⟨b₁, rest⟩, hrandom, rfl⟩ := Option.map_eq_some_iff.1 h
      exact Board.edited_randomize hrandom
  | setStrobe level =>
      obtain rfl := Option.some.inj h
      exact Board.edited_setStrobe b level

theorem edited_perform (op : Operation θ) (b : Board n) : b.Edited (op.perform b) := by
  rw [perform]
  cases h : op.result? b with
  | none => exact Board.Edited.refl b
  | some b' => exact edited_of_result? h

end Operation

namespace Board

variable {n : Nat}

theorem getElem_channels_markPublished (b : Board n) (j : Fin n) (i : Nat) (h : i < n) :
    (b.markPublished j).channels[i] =
      if j = i then { b.channels[i] with pendingPublish := false } else b.channels[i] := by
  show (b.channels.set j _)[i] = _
  rw [Vector.getElem_set]
  split
  next hji =>
    subst hji
    rfl
  next => rfl

theorem pendingPublish_of_firstPending? {b : Board n} {i : Nat} {hi : i < n}
    (h : b.firstPending? = some ⟨i, hi⟩) : b.channels[i].pendingPublish = true := by
  rw [firstPending?, Vector.findFinIdx?, Option.map_eq_some_iff] at h
  obtain ⟨j, hj, hji⟩ := h
  obtain rfl := Fin.val_eq_of_eq hji
  exact (Array.findFinIdx?_eq_some_iff.1 hj).1

theorem pendingPublish_before_firstPending? {b : Board n} {j : Fin n} (h : b.firstPending? = some j)
    {i : Nat} (hij : i < j) : b.channels[i].pendingPublish = false := by
  rw [firstPending?, Vector.findFinIdx?, Option.map_eq_some_iff] at h
  obtain ⟨k, hk, rfl⟩ := h
  have hidle := (Array.findFinIdx?_eq_some_iff.1 hk).2 ⟨i, Nat.lt_trans hij k.isLt⟩ hij
  exact Bool.eq_false_iff.2 hidle

theorem firstPending?_eq_none_iff (b : Board n) :
    b.firstPending? = none ↔ ∀ i (h : i < n), b.channels[i].pendingPublish = false := by
  rw [firstPending?, Vector.findFinIdx?_eq_none_iff]
  simp [Vector.forall_mem_iff_forall_getElem]

end Board

namespace Output

variable {n : Nat}

/-- Writing the outputs touches no more of a channel than its dirty flag. -/
theorem getElem_channels_flush (o : Output n) (b : Board n) (i : Nat) (h : i < n) :
    ∃ dirty, (o.flush b).2.1.channels[i] = { b.channels[i] with dirty := dirty } := by
  cases hchanged : b.changed with
  | true =>
      rw [flush_of_changed o hchanged]
      exact ⟨false, Vector.getElem_map _ _⟩
  | false =>
      rw [flush_of_unchanged o hchanged]
      exact ⟨b.channels[i].dirty, rfl⟩

end Output

namespace Publisher

variable {n : Nat} {τ : Type} [Transport τ]

theorem board_pollChannel (b : Board n) (root : String) (t : τ) :
    (pollChannel b root t).2.1 = b ∨
      ∃ i, b.firstPending? = some i ∧ (pollChannel b root t).2.1 = b.markPublished i := by
  rw [pollChannel]
  split
  next => exact Or.inl rfl
  next i hpending =>
    split
    next => exact Or.inr ⟨i, hpending, rfl⟩
    next => exact Or.inl rfl

theorem board_poll (p : Publisher) (b : Board n) (root : String) (t : τ) :
    (p.poll b root t).board = b ∨
      ∃ i, b.firstPending? = some i ∧ (p.poll b root t).board = b.markPublished i := by
  rw [poll]
  split
  next => exact Or.inl rfl
  next => exact board_pollChannel b root _

end Publisher

namespace Node

variable {n : Nat} {η τ : Type} [Transport τ]

theorem board_poll (node : Node n η) (now : Instant) (t : τ) :
    (node.poll now t).node.board = node.board ∨
      ∃ i, node.board.firstPending? = some i ∧
        (node.poll now t).node.board = node.board.markPublished i :=
  node.publisher.board_poll node.board node.root (node.plan.poll now node.root t).transport

end Node

namespace Session

variable {n : Nat} {η θ τ : Type} [Transport τ]

theorem board_process_of_quiet {s : Session n η} (h : s.node.hasUniverse = false) :
    s.process.node.board = s.node.board.advance := by
  show s.node.process.2.board = _
  rw [s.node.board_process, Node.board_readDmx_of_quiet h]

theorem board_poll (s : Session n η) (now : Instant) (t : τ) :
    (s.poll now t).node.board = s.node.board ∨
      ∃ i, s.node.board.firstPending? = some i ∧
        (s.poll now t).node.board = s.node.board.markPublished i :=
  s.node.board_poll now (⟨t, s.calls⟩ : Recorded τ)

variable [HueSource η] [HueSource θ]

/-- What comes from outside, other than a step, is an edit. -/
theorem edited_step? {s s' : Session n η} {e : Event θ τ} (hinput : e.isInput = true)
    (h : s.step? e = some s') : s.node.Edited s'.node := by
  cases e with
  | connack now =>
      rw [step?, Option.map_eq_some_iff] at h
      obtain ⟨node, hconnack, rfl⟩ := h
      rw [Node.connack?, Option.map_eq_some_iff] at hconnack
      obtain ⟨plan, _, rfl⟩ := hconnack
      exact ⟨Board.Edited.refl s.node.board, rfl, rfl⟩
  | receive topic payload retained =>
      obtain rfl := Option.some.inj h
      exact s.node.edited_receive topic payload retained
  | storeUniverse slots =>
      rw [step?, Node.storeUniverse] at h
      cases hstore : s.node.inbox.store slots with
      | error e =>
          rw [hstore] at h
          obtain rfl := Option.some.inj h
          exact ⟨Board.Edited.refl s.node.board, rfl, rfl⟩
      | ok inbox =>
          rw [hstore] at h
          obtain rfl := Option.some.inj h
          exact ⟨Board.Edited.refl s.node.board, rfl, rfl⟩
  | operate op =>
      obtain rfl := Option.some.inj h
      exact ⟨op.edited_perform s.node.board, rfl, rfl⟩
  | _ => cases hinput

/-- An event leaves the board alone, or it is a message or an operation, or one of the three steps,
or several of them in a tick. What all of these preserve, every event preserves. -/
theorem step?_preserves {I : Session n η → Prop} {s s' : Session n η} {e : Event θ τ}
    (hnode : ∀ plan publisher inbox, I s →
      I (s.withNode { s.node with plan := plan, publisher := publisher, inbox := inbox }))
    (hreceive : ∀ topic payload retained, I s →
      I (s.withNode (s.node.receive topic payload retained).2))
    (hoperate : ∀ op, e = .operate op → I s →
      I (s.withNode { s.node with board := op.perform s.node.board }))
    (hprocess : s.processes e → I s → I s.process)
    (hpoll : ∀ (s : Session n η) (now : Instant) (t : τ), I s → I (s.poll now t))
    (hflush : ∀ s : Session n η, I s → I s.flush)
    (hpaced : ∀ (s : Session n η) (process poll : Cadence), I s → I (s.paced process poll))
    (hs : I s) (h : s.step? e = some s') : I s' := by
  cases e with
  | connack now =>
      rw [step?, Option.map_eq_some_iff] at h
      obtain ⟨node, hconnack, rfl⟩ := h
      rw [Node.connack?, Option.map_eq_some_iff] at hconnack
      obtain ⟨plan, _, rfl⟩ := hconnack
      exact hnode plan s.node.publisher.onConnected s.node.inbox hs
  | receive topic payload retained =>
      obtain rfl := Option.some.inj h
      exact hreceive topic payload retained hs
  | storeUniverse slots =>
      rw [step?, Node.storeUniverse] at h
      cases hstore : s.node.inbox.store slots with
      | error e =>
          rw [hstore] at h
          obtain rfl := Option.some.inj h
          exact hs
      | ok inbox =>
          rw [hstore] at h
          obtain rfl := Option.some.inj h
          exact hnode s.node.plan s.node.publisher inbox hs
  | operate op =>
      obtain rfl := Option.some.inj h
      exact hoperate op rfl hs
  | process =>
      obtain rfl := Option.some.inj h
      exact hprocess trivial hs
  | poll now t =>
      obtain rfl := Option.some.inj h
      exact hpoll s now t hs
  | flush =>
      obtain rfl := Option.some.inj h
      exact hflush s hs
  | tick now t =>
      obtain ⟨lit, told, hlit, htold, process, poll, rfl⟩ := tick?_eq_some h
      have hI : I lit := by
        rcases hlit with ⟨rfl, hdue⟩ | rfl
        · exact hprocess hdue hs
        · exact hs
      have hI' : I told := by
        rcases htold with rfl | rfl
        · exact hpoll lit now t hI
        · exact hI
      exact hpaced told.flush process poll (hflush told hI')

/-- As far as edits are concerned, every event that is not a step is one. -/
theorem step?_invariant {I : Session n η → Prop} {s s' : Session n η} {e : Event θ τ}
    (hedit : ∀ node, s.node.Edited node → I s → I (s.withNode node))
    (hprocess : s.processes e → I s → I s.process)
    (hpoll : ∀ (s : Session n η) (now : Instant) (t : τ), I s → I (s.poll now t))
    (hflush : ∀ s : Session n η, I s → I s.flush)
    (hpaced : ∀ (s : Session n η) (process poll : Cadence), I s → I (s.paced process poll))
    (hs : I s) (h : s.step? e = some s') : I s' :=
  step?_preserves (fun _ _ _ => hedit _ ⟨Board.Edited.refl s.node.board, rfl, rfl⟩)
    (fun topic payload retained => hedit _ (s.node.edited_receive topic payload retained))
    (fun op _ => hedit _ ⟨op.edited_perform s.node.board, rfl, rfl⟩) hprocess hpoll hflush hpaced
    hs h

/-- If a step of the outputs brings something about whatever was before, it holds after every event
that ends with one. -/
theorem of_flushes {I : Session n η → Prop} {s s' : Session n η} {e : Event θ τ}
    (hflush : ∀ s : Session n η, I s.flush)
    (hpaced : ∀ (s : Session n η) (process poll : Cadence), I s → I (s.paced process poll))
    (hflushes : e.flushes = true) (h : s.step? e = some s') : I s' := by
  cases e with
  | flush =>
      obtain rfl := Option.some.inj h
      exact hflush s
  | tick now t =>
      obtain ⟨lit, told, _, _, process, poll, rfl⟩ := tick?_eq_some h
      exact hpaced told.flush process poll (hflush told)
  | _ => cases hflushes

end Session

end Luminaire
