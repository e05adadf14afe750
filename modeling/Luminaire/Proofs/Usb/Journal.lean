import Luminaire.Proofs.Usb.Routing

/-!
# A journal of handlers

A router leaves no trace of which handler it called: handlers are actions on a state they share,
and two of them may do the same to it. To speak of the handler that got something, handlers are
numbered, and each keeps a journal of its calls beside the shared state. The router is given the
journaled handlers and knows nothing of it.

The search for a handler is then the same for all that is said about routers: those before the one
that is found have declined, and the questions in the journal are those to them and to it
(`Router.firstClaiming_seats`).
-/

namespace Luminaire

namespace Usb

/-- A call of a handler. -/
inductive Invocation where
  | claims (request : UInt8)
  | setup (packet : SetupPacket)
  | write (data : List UInt8)
  | read (buffer : List UInt8)
  | readFinished
deriving DecidableEq

namespace Invocation

def isSetup : Invocation → Bool
  | setup _ => true
  | _ => false

end Invocation

/-- The calls so far, each with the number of the handler. -/
abbrev Journal := List (Nat × Invocation)

/-- The handler whose setup was called. -/
def setUp? (journal : Journal) : Option Nat :=
  (journal.find? fun entry => entry.2.isSetup).map Prod.fst

/-- The handlers of these numbers were asked in order whether they serve the request. -/
def asked (request : UInt8) (numbers : List Nat) : Journal :=
  numbers.map fun k => (k, .claims request)

theorem find?_asked (request : UInt8) (numbers : List Nat) :
    (asked request numbers).find? (fun entry => entry.2.isSetup) = none := by
  simp [asked, Invocation.isSetup]

theorem setUp?_asked (request : UInt8) (numbers : List Nat) :
    setUp? (asked request numbers) = none := by
  rw [setUp?, find?_asked]
  rfl

theorem setUp?_asked_append (request : UInt8) (numbers : List Nat) (k : Nat)
    (packet : SetupPacket) :
    setUp? (asked request numbers ++ [(k, .setup packet)]) = some k := by
  rw [setUp?, List.find?_append, find?_asked]
  rfl

section Handlers

variable {σ α : Type}

/-- The action with an entry in the journal. -/
def note (number : Nat) (call : Invocation) (action : StateM σ α) : StateM (σ × Journal) α :=
  fun s => ((action s.1).1, (action s.1).2, s.2 ++ [(number, call)])

namespace Handler

/-- A handler that serves nothing. -/
def idle : Handler σ where
  claims _ := pure false
  setup _ := pure 0

/-- A handler that serves every request and has nothing to send. -/
def eager : Handler σ where
  claims _ := pure true
  setup _ := pure 0

/-- The handler with all of its calls in the journal. -/
def journaled (h : Handler σ) (number : Nat) : Handler (σ × Journal) where
  claims request := note number (.claims request) (h.claims request)
  setup packet := note number (.setup packet) (h.setup packet)
  write data := note number (.write data) (h.write data)
  read buffer := note number (.read buffer) (h.read buffer)
  readFinished := note number .readFinished h.readFinished

end Handler

/-- A handler with the number under which its calls are in the journal. -/
structure Party (σ : Type) where
  number : Nat
  handler : Handler σ

/-- The party as the router sees it. -/
def Party.seat (p : Party σ) : Handler (σ × Journal) := p.handler.journaled p.number

/-- Asked in order, all of the parties decline the request. The state goes with the questions. -/
inductive Declined (request : UInt8) : List (Party σ) → σ → σ → Prop
  | nil (s : σ) : Declined request [] s s
  | cons {p : Party σ} {rest : List (Party σ)} {s s' : σ}
      (hno : (p.handler.claims request s).1 = false)
      (hrest : Declined request rest (p.handler.claims request s).2 s') :
      Declined request (p :: rest) s s'

namespace Router

/-- What the search among journaled handlers finds: the first of them that claims the request, or
none if they all decline. -/
theorem firstClaiming_seats (request : UInt8) (parties : List (Party σ)) (place : Nat)
    (s : σ) (journal : Journal) :
    (∃ before p after s₁, parties = before ++ p :: after ∧ Declined request before s s₁ ∧
      (p.handler.claims request s₁).1 = true ∧
      firstClaiming request place (parties.map Party.seat) (s, journal) =
        (some (place + before.length), (p.handler.claims request s₁).2,
          journal ++ asked request ((before ++ [p]).map Party.number))) ∨
    ∃ s₁, Declined request parties s s₁ ∧
      firstClaiming request place (parties.map Party.seat) (s, journal) =
        (none, s₁, journal ++ asked request (parties.map Party.number)) := by
  induction parties generalizing place s journal with
  | nil =>
      refine Or.inr ⟨s, Declined.nil s, ?_⟩
      rw [List.map_nil, asked, List.map_nil, List.map_nil, List.append_nil]
      rfl
  | cons p rest ih =>
      rw [List.map_cons, firstClaiming_cons]
      cases hclaims : (p.handler.claims request s).1 with
      | true =>
          have hseat : (p.seat.claims request (s, journal)).1 = true := hclaims
          exact Or.inl ⟨[], p, rest, s, rfl, Declined.nil s, hclaims, by rw [if_pos hseat]; rfl⟩
      | false =>
          have hseat : ¬ (p.seat.claims request (s, journal)).1 = true :=
            ne_true_of_eq_false hclaims
          -- the search goes on with one more entry in the journal
          have hnext : ∀ numbers : List Nat,
              journal ++ asked request (p.number :: numbers) =
                journal ++ [(p.number, .claims request)] ++ asked request numbers := by
            intro numbers
            rw [List.append_assoc]
            rfl
          rw [if_neg hseat]
          rcases ih (place + 1) (p.handler.claims request s).2
              (journal ++ [(p.number, .claims request)]) with
            ⟨before, q, after, s₁, rfl, hbefore, hq, hfound⟩ | ⟨s₁, hall, hfound⟩
          · refine Or.inl ⟨p :: before, q, after, s₁, rfl, Declined.cons hclaims hbefore, hq, ?_⟩
            rw [List.cons_append, List.map_cons, hnext, List.length_cons, Nat.add_comm before.length,
              ← Nat.add_assoc]
            exact hfound
          · refine Or.inr ⟨s₁, Declined.cons hclaims hall, ?_⟩
            rw [List.map_cons, hnext]
            exact hfound

end Router

end Handlers

end Usb

end Luminaire
