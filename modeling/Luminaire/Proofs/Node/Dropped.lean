import Luminaire.Proofs.Message.Chain
import Luminaire.Proofs.Node.Session

/-!
# Dropped messages

A message that has no effect might as well not have come. `Session.heard` takes such messages out
of a run, judging each in the session in which it comes. Since a dropped message leads from a
session to itself, what is left of the run passes through the same sessions, and what leaves the
node is part of a session.
-/

namespace Luminaire

namespace Node

variable {n : Nat} {η : Type} [HueSource η]

theorem receive_eq_hear (node : Node n η) (topic : String) (payload : ByteArray)
    (retained : Bool) :
    node.receive topic payload retained =
      let heard := node.board.hear node.hues node.root topic payload retained
      (heard.1, { node with board := heard.2.1, hues := heard.2.2 }) := by
  rw [receive, Board.hear_eq]
  cases node.board.receive node.hues node.root topic payload retained <;> rfl

end Node

namespace Session

variable {n : Nat} {η θ τ : Type} [HueSource η] [HueSource θ] [Transport τ]

/-- The event is a message that is dropped. -/
def drops (s : Session n η) : Event θ τ → Bool
  | .receive topic payload retained => (s.node.receive topic payload retained).1.isNone
  | _ => false

/-- The events without the messages that are dropped. -/
def heard (s : Session n η) : List (Event θ τ) → List (Event θ τ)
  | [] => []
  | e :: rest =>
      match s.step? e with
      | none => e :: rest
      | some s' => if s.drops e then s'.heard rest else e :: s'.heard rest

end Session

end Luminaire
