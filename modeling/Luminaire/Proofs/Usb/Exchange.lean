import Luminaire.Proofs.Usb.Journal

/-!
# Who gets the data

An exchange is a router at work: handlers are offered to it, packets and data come in. Handlers
are numbered in the order in which they are offered, so no number stands for two of them, and all
of them keep a journal.

A transfer belongs to the handler whose setup was called for the last setup packet. The router
remembers a route instead, and only that of the last vendor request. `Tracks` says what the two
have to do with each other after any course of events. From this follows when the data of a
transfer ends up with another handler: after a packet of another type, which leaves the route of
the transfer before it in place, and after the fallback was replaced in the middle of its
transfer.
-/

namespace Luminaire

namespace Usb

/-- What can come to a router. -/
inductive Input (σ : Type) where
  | register (h : Handler σ)
  | setFallback (h : Handler σ)
  | setup (bytes : Vector UInt8 8)
  | write (data : List UInt8)
  | read (buffer : List UInt8)
  | readFinished

/-- A router at work. -/
structure Exchange (capacity : Nat) (σ : Type) where
  router : Router capacity (σ × Journal)
  /-- The state that the handlers share. -/
  shared : σ
  /-- The handlers that were offered so far. The place of a handler is its number. -/
  offered : List (Handler σ)
  /-- The handlers that the router took, in order. -/
  registered : List Nat
  fallback : Option Nat
  /-- The handler whose setup was called for the last setup packet. -/
  begun : Option Nat
  /-- The handler whose setup was called for the last setup packet of the vendors' type. -/
  vendorBegun : Option Nat

namespace Exchange

variable {capacity : Nat} {σ : Type}

/-- A router without handlers. -/
def start (shared : σ) : Exchange capacity σ where
  router := Router.empty
  shared := shared
  offered := []
  registered := []
  fallback := none
  begun := none
  vendorBegun := none

/-- The handler of this number. -/
def handler (x : Exchange capacity σ) (k : Nat) : Handler σ := x.offered.getD k Handler.idle

/-- The handler of this number as the router sees it. -/
def seat (x : Exchange capacity σ) (k : Nat) : Handler (σ × Journal) := (x.handler k).journaled k

/-- The exchange after an input. The journal begins anew with each of them. -/
def step (x : Exchange capacity σ) : Input σ → Exchange capacity σ
  | .register h =>
      match x.router.register? (h.journaled x.offered.length) with
      | some router =>
          { x with
            router := router
            offered := x.offered ++ [h]
            registered := x.registered ++ [x.offered.length] }
      | none => { x with offered := x.offered ++ [h] }
  | .setFallback h =>
      { x with
        router := x.router.setFallback (h.journaled x.offered.length)
        offered := x.offered ++ [h]
        fallback := some x.offered.length }
  | .setup bytes =>
      let ((_, router), shared, journal) := x.router.setup bytes (x.shared, [])
      { x with
        router := router
        shared := shared
        begun := setUp? journal
        vendorBegun :=
          if (SetupPacket.ofBytes bytes).isVendor then setUp? journal else x.vendorBegun }
  | .write data => { x with shared := (x.router.write data (x.shared, [])).2.1 }
  | .read buffer => { x with shared := (x.router.read buffer (x.shared, [])).2.1 }
  | .readFinished => { x with shared := (x.router.readFinished (x.shared, [])).2.1 }

/-- The exchange after some inputs, the first one first. -/
def run (x : Exchange capacity σ) (inputs : List (Input σ)) : Exchange capacity σ :=
  inputs.foldl step x

/-- Data that comes now goes to this handler and to no other one. If it is to go to none, it is
complete at once, there is none for the host, and nothing happens. -/
structure ServedBy (x : Exchange capacity σ) (who : Option Nat) : Prop where
  write : ∀ data, x.router.write data (x.shared, []) =
    who.elim (true, x.shared, []) fun k =>
      note k (.write data) ((x.handler k).write data) (x.shared, [])
  read : ∀ buffer, x.router.read buffer (x.shared, []) =
    who.elim ((0, buffer), x.shared, []) fun k =>
      note k (.read buffer) ((x.handler k).read buffer) (x.shared, [])
  readFinished : x.router.readFinished (x.shared, []) =
    who.elim ((), x.shared, []) fun k =>
      note k .readFinished (x.handler k).readFinished (x.shared, [])

/-- The handler at the end of a route. -/
def numberOf (x : Exchange capacity σ) : Route → Option Nat
  | .handler place => x.registered[place]?
  | .fallback => x.fallback

/-- The handler of the last vendor request: in place of a fallback that was replaced the one that is
set now. -/
def recipient (x : Exchange capacity σ) : Option Nat :=
  x.vendorBegun.bind fun k => if k ∈ x.registered then some k else x.fallback

/-- The last setup packet is that of the last vendor transfer, and the handler that began it is
still there. -/
def Undisturbed (x : Exchange capacity σ) : Prop :=
  x.begun = x.vendorBegun ∧
    ∀ k, x.begun = some k → k ∈ x.registered ∨ x.fallback = some k

/-- One of the first `count` handlers, but none that registered. -/
def Apart (count : Nat) (registered : List Nat) (k : Nat) : Prop :=
  k < count ∧ k ∉ registered

/-- The route that is remembered after a handler began a transfer. -/
inductive Begins (count : Nat) (registered : List Nat) (fallback : Option Nat) :
    Option Route → Option Nat → Prop
  | nobody : Begins count registered fallback none none
  | handler {place k : Nat} (h : registered[place]? = some k) :
      Begins count registered fallback (some (.handler place)) (some k)
  | fallback {k f : Nat} (hk : Apart count registered k) (hf : fallback = some f) :
      Begins count registered fallback (some .fallback) (some k)

/-- What the router has, and what it remembers, in numbers. -/
structure Tracks (x : Exchange capacity σ) : Prop where
  handlers : x.router.handlers = x.registered.map x.seat
  fallback : x.router.fallback = x.fallback.map x.seat
  known : ∀ k ∈ x.registered, k < x.offered.length
  apart : ∀ f, x.fallback = some f → Apart x.offered.length x.registered f
  route : Begins x.offered.length x.registered x.fallback x.router.active x.vendorBegun
  begun : x.begun = none ∨ x.begun = x.vendorBegun

theorem handler_of_append {x x' : Exchange capacity σ} {h : Handler σ}
    (hoffered : x'.offered = x.offered ++ [h]) {k : Nat} (hk : k < x.offered.length) :
    x'.handler k = x.handler k := by
  rw [handler, handler, hoffered]
  simp [List.getElem?_append_left hk]

theorem seat_of_append {x x' : Exchange capacity σ} {h : Handler σ}
    (hoffered : x'.offered = x.offered ++ [h]) {k : Nat} (hk : k < x.offered.length) :
    x'.seat k = x.seat k := by
  rw [seat, seat, handler_of_append hoffered hk]

theorem map_seat_of_append {x x' : Exchange capacity σ} {h : Handler σ}
    (hoffered : x'.offered = x.offered ++ [h]) (hknown : ∀ k ∈ x.registered, k < x.offered.length) :
    x.registered.map x'.seat = x.registered.map x.seat :=
  List.map_congr_left fun k hk => seat_of_append hoffered (hknown k hk)

theorem seat_length {x x' : Exchange capacity σ} {h : Handler σ}
    (hoffered : x'.offered = x.offered ++ [h]) :
    x'.seat x.offered.length = h.journaled x.offered.length := by
  rw [seat, handler, hoffered]
  simp

theorem Begins.mono {count count' : Nat} {registered registered' : List Nat}
    {fallback fallback' : Option Nat} {active : Option Route} {begun : Option Nat}
    (h : Begins count registered fallback active begun)
    (hregistered : ∀ place k : Nat, registered[place]? = some k → registered'[place]? = some k)
    (hapart : ∀ k, Apart count registered k → Apart count' registered' k)
    (hfallback : ∀ f, fallback = some f → ∃ f', fallback' = some f') :
    Begins count' registered' fallback' active begun := by
  cases h with
  | nobody => exact Begins.nobody
  | handler h => exact Begins.handler (hregistered _ _ h)
  | fallback hk hf =>
      obtain ⟨f', hf'⟩ := hfallback _ hf
      exact Begins.fallback (hapart _ hk) hf'

theorem Apart.register {count k : Nat} {registered : List Nat} (h : Apart count registered k) :
    Apart (count + 1) (registered ++ [count]) k := by
  refine ⟨Nat.lt_succ_of_lt h.1, fun hmem => ?_⟩
  rcases List.mem_append.1 hmem with hmem | hmem
  · exact h.2 hmem
  · exact Nat.ne_of_lt h.1 (List.mem_singleton.1 hmem)

theorem Apart.offer {count k : Nat} {registered : List Nat} (h : Apart count registered k) :
    Apart (count + 1) registered k := ⟨Nat.lt_succ_of_lt h.1, h.2⟩

theorem tracks_start (shared : σ) : (start shared : Exchange capacity σ).Tracks where
  handlers := rfl
  fallback := rfl
  known := nofun
  apart := nofun
  route := Begins.nobody
  begun := Or.inl rfl

/-- A handler that is refused gets a number like any other, and is heard of no more. -/
theorem Tracks.offer {x : Exchange capacity σ} (h : x.Tracks) (g : Handler σ) :
    Tracks { x with offered := x.offered ++ [g] } := by
  have hlength : (x.offered ++ [g]).length = x.offered.length + 1 := List.length_append
  refine ⟨?_, ?_, fun k hk => ?_, fun f hf => ?_, ?_, h.begun⟩
  · exact h.handlers.trans (map_seat_of_append rfl h.known).symm
  · refine h.fallback.trans ?_
    cases hf : x.fallback with
    | none => rfl
    | some f => exact congrArg some (seat_of_append rfl (h.apart f hf).1).symm
  · rw [hlength]
    exact Nat.lt_succ_of_lt (h.known k hk)
  · rw [hlength]
    exact (h.apart f hf).offer
  · rw [hlength]
    exact h.route.mono (fun _ _ => id) (fun _ => Apart.offer) fun f hf => ⟨f, hf⟩

theorem Tracks.register {x : Exchange capacity σ} (h : x.Tracks) {g : Handler σ}
    {router : Router capacity (σ × Journal)}
    (hrouter : x.router.register? (g.journaled x.offered.length) = some router) :
    Tracks { x with
      router := router
      offered := x.offered ++ [g]
      registered := x.registered ++ [x.offered.length] } := by
  obtain ⟨hhandlers, hfallback, hactive⟩ := Router.of_register? hrouter
  have hlength : (x.offered ++ [g]).length = x.offered.length + 1 := List.length_append
  have hoffer := h.offer g
  refine ⟨?_, hfallback.trans hoffer.fallback, fun k hk => ?_, fun f hf => ?_, ?_, h.begun⟩
  · rw [hhandlers, List.map_append, List.map_singleton, seat_length rfl]
    exact congrArg (· ++ _) hoffer.handlers
  · rcases List.mem_append.1 hk with hk | hk
    · exact hoffer.known k hk
    · obtain rfl := List.mem_singleton.1 hk
      rw [hlength]
      exact Nat.lt_succ_self _
  · rw [hlength]
    exact (h.apart f hf).register
  · rw [hlength, hactive]
    refine h.route.mono (fun place k hplace => ?_) (fun _ => Apart.register) fun f hf => ⟨f, hf⟩
    obtain ⟨hlt, rfl⟩ := List.getElem?_eq_some_iff.1 hplace
    exact (List.getElem?_append_left hlt).trans hplace

theorem Tracks.setFallback {x : Exchange capacity σ} (h : x.Tracks) (g : Handler σ) :
    (x.step (.setFallback g)).Tracks := by
  have hlength : (x.offered ++ [g]).length = x.offered.length + 1 := List.length_append
  have hoffer := h.offer g
  refine ⟨hoffer.handlers, congrArg some (seat_length rfl).symm, hoffer.known, fun f hf => ?_,
    hoffer.route.mono (fun _ _ => id) (fun _ => id) fun _ _ => ⟨_, rfl⟩, h.begun⟩
  obtain rfl := Option.some.inj hf
  refine ⟨?_, fun hmem => Nat.lt_irrefl _ (h.known _ hmem)⟩
  show x.offered.length < (x.offered ++ [g]).length
  rw [hlength]
  exact Nat.lt_succ_self _

theorem Tracks.resolve {x : Exchange capacity σ} (h : x.Tracks) (route : Route) :
    x.router.resolve route = (x.numberOf route).map x.seat := by
  cases route with
  | handler place =>
      rw [Router.resolve, h.handlers, List.getElem?_map]
      rfl
  | fallback => exact h.fallback

theorem Tracks.begins {x : Exchange capacity σ} (h : x.Tracks) {route : Route} {k : Nat}
    (hk : x.numberOf route = some k) :
    Begins x.offered.length x.registered x.fallback (some route) (some k) := by
  cases route with
  | handler place => exact Begins.handler hk
  | fallback => exact Begins.fallback (h.apart k hk) hk

/-- Finding a route asks handlers and calls nothing else, and the route that is found leads to a
handler. -/
theorem Tracks.find_route {x : Exchange capacity σ} (h : x.Tracks) (request : UInt8) :
    ∃ (active : Option Route) (numbers : List Nat) (shared : σ),
      x.router.route request (x.shared, []) = (active, shared, asked request numbers) ∧
      ∀ route, active = some route → ∃ k, x.numberOf route = some k := by
  have hhandlers : x.router.handlers =
      (x.registered.map fun k => Party.mk k (x.handler k)).map Party.seat := by
    rw [List.map_map]
    exact h.handlers
  rcases Router.firstClaiming_seats request (x.registered.map fun k => Party.mk k (x.handler k)) 0
      x.shared [] with
    ⟨before, p, after, s₁, hregistered, -, -, hfound⟩ | ⟨s₁, -, hfound⟩
  · rw [← hhandlers, Nat.zero_add, List.nil_append] at hfound
    refine ⟨_, _, _, Router.route_of_found hfound, fun route hroute => ?_⟩
    obtain rfl := Option.some.inj hroute
    have hlength := congrArg List.length hregistered
    rw [List.length_map, List.length_append, List.length_cons] at hlength
    exact ⟨_, List.getElem?_eq_getElem (by omega)⟩
  · rw [← hhandlers, List.nil_append] at hfound
    refine ⟨_, _, _, Router.route_of_declined hfound, fun route hroute => ?_⟩
    rw [h.fallback] at hroute
    obtain ⟨seat, hseat, rfl⟩ := Option.map_eq_some_iff.1 hroute
    obtain ⟨k, hk, _⟩ := Option.map_eq_some_iff.1 hseat
    exact ⟨k, hk⟩

/-- A vendor request leaves the route to the handler whose setup it called. -/
theorem Tracks.setup_vendor {x : Exchange capacity σ} (h : x.Tracks) {bytes : Vector UInt8 8}
    (hvendor : (SetupPacket.ofBytes bytes).isVendor = true) :
    ∃ (count : UInt16) (active : Option Route) (shared : σ) (journal : Journal),
      x.router.setup bytes (x.shared, []) =
        ((count, { x.router with active := active }), shared, journal) ∧
      Begins x.offered.length x.registered x.fallback active (setUp? journal) := by
  obtain ⟨active, numbers, shared, hroute, hleads⟩ :=
    h.find_route (SetupPacket.ofBytes bytes).request
  have hsetup := x.router.setup_of_vendor hvendor hroute
  cases active with
  | none =>
      refine ⟨0, none, shared, _, hsetup, ?_⟩
      rw [setUp?_asked]
      exact Begins.nobody
  | some route =>
      obtain ⟨k, hk⟩ := hleads route rfl
      have hactive : ({ x.router with active := some route } :
          Router capacity (σ × Journal)).activeHandler? = some (x.seat k) := by
        refine (h.resolve route).trans ?_
        rw [hk]
        rfl
      rw [hactive] at hsetup
      refine ⟨_, some route, _, _, hsetup, ?_⟩
      rw [show setUp? _ = _ from setUp?_asked_append _ numbers k _]
      exact h.begins hk

theorem Tracks.setup {x : Exchange capacity σ} (h : x.Tracks) (bytes : Vector UInt8 8) :
    (x.step (.setup bytes)).Tracks := by
  cases hvendor : (SetupPacket.ofBytes bytes).isVendor with
  | true =>
      obtain ⟨count, active, shared, journal, hsetup, hbegins⟩ := h.setup_vendor hvendor
      simp only [step, hsetup, hvendor, if_true]
      exact ⟨h.handlers, h.fallback, h.known, h.apart, hbegins, Or.inr rfl⟩
  | false =>
      simp only [step, x.router.setup_of_other hvendor, hvendor]
      exact ⟨h.handlers, h.fallback, h.known, h.apart, h.route, Or.inl rfl⟩

theorem Tracks.step {x : Exchange capacity σ} (h : x.Tracks) (input : Input σ) :
    (x.step input).Tracks := by
  cases input with
  | register g =>
      rw [Exchange.step]
      split
      next router hrouter => exact h.register hrouter
      next => exact h.offer g
  | setFallback g => exact h.setFallback g
  | setup bytes => exact h.setup bytes
  | write data => exact ⟨h.handlers, h.fallback, h.known, h.apart, h.route, h.begun⟩
  | read buffer => exact ⟨h.handlers, h.fallback, h.known, h.apart, h.route, h.begun⟩
  | readFinished => exact ⟨h.handlers, h.fallback, h.known, h.apart, h.route, h.begun⟩

theorem Tracks.run {x : Exchange capacity σ} (h : x.Tracks) (inputs : List (Input σ)) :
    (x.run inputs).Tracks := by
  induction inputs generalizing x with
  | nil => exact h
  | cons input rest ih => exact ih (h.step input)

theorem Tracks.activeHandler? {x : Exchange capacity σ} (h : x.Tracks) :
    x.router.activeHandler? = x.recipient.map x.seat := by
  have hroute := h.route
  rw [Router.activeHandler?, recipient]
  generalize x.router.active = active at hroute ⊢
  generalize x.vendorBegun = begun at hroute ⊢
  cases hroute with
  | nobody => rfl
  | @handler place k hplace =>
      have hmem : k ∈ x.registered := List.mem_of_getElem? hplace
      rw [Option.bind_some, Option.bind_some, if_pos hmem, h.resolve]
      exact congrArg (Option.map x.seat) hplace
  | fallback hk hf =>
      rw [Option.bind_some, Option.bind_some, if_neg hk.2]
      exact h.resolve Route.fallback

theorem Tracks.servedBy_recipient {x : Exchange capacity σ} (h : x.Tracks) :
    x.ServedBy x.recipient := by
  have hactive := h.activeHandler?
  refine ⟨fun data => ?_, fun buffer => ?_, ?_⟩
  · rw [Router.write, hactive]
    cases x.recipient <;> rfl
  · rw [Router.read, hactive]
    cases x.recipient <;> rfl
  · rw [Router.readFinished, hactive]
    cases x.recipient <;> rfl

/-- The journal tells by whom data was served. -/
theorem ServedBy.unique {x : Exchange capacity σ} {who who' : Option Nat} (h : x.ServedBy who)
    (h' : x.ServedBy who') : who = who' := by
  have hjournal := congrArg (fun out => out.2.2) (h.readFinished.symm.trans h'.readFinished)
  cases who with
  | none =>
      cases who' with
      | none => rfl
      | some k' => cases hjournal
  | some k =>
      cases who' with
      | none => cases hjournal
      | some k' =>
          obtain ⟨hk, _⟩ := List.cons.inj hjournal
          exact congrArg some (Prod.mk.inj hk).1

theorem Tracks.begun_eq_recipient_iff {x : Exchange capacity σ} (h : x.Tracks) :
    x.begun = x.recipient ↔ x.Undisturbed := by
  have hroute := h.route
  have hbegun := h.begun
  rw [Undisturbed, recipient]
  generalize x.router.active = active at hroute
  generalize x.vendorBegun = vendorBegun at hroute hbegun ⊢
  cases hroute with
  | nobody =>
      have hnone : x.begun = none := hbegun.elim id id
      simp [hnone]
  | @handler place k hplace =>
      have hmem : k ∈ x.registered := List.mem_of_getElem? hplace
      rcases hbegun with hnone | hsome
      · simp [hnone, hmem]
      · simp [hsome, hmem]
  | @fallback k f hk hf =>
      rcases hbegun with hnone | hsome
      · simp [hnone, hk.2, hf]
      · simp [hsome, hk.2, hf, eq_comm]

/-- After any inputs, data goes to the handler whose setup was called for the last setup packet
exactly if nothing disturbed the transfer. In any case it goes to one handler, which is the one at
the end of the route of the last vendor request, or to none if there is no such route. -/
theorem data_served (shared : σ) (inputs : List (Input σ)) :
    let x : Exchange capacity σ := (start shared).run inputs
    (x.ServedBy x.begun ↔ x.Undisturbed) ∧ x.ServedBy x.recipient := by
  intro x
  have htracks : x.Tracks := (tracks_start shared).run inputs
  refine ⟨⟨fun h => ?_, fun h => ?_⟩, htracks.servedBy_recipient⟩
  · exact htracks.begun_eq_recipient_iff.1 (h.unique htracks.servedBy_recipient)
  · rw [htracks.begun_eq_recipient_iff.2 h]
    exact htracks.servedBy_recipient

/-- Data after a packet of the standard type still goes to the handler before it, and the data of
a fallback that was replaced goes to the new one. -/
theorem data_misled :
    (∃ x : Exchange 1 Unit,
      (start ()).run [.register Handler.eager, .setup #v[0x40, 2, 0, 0, 0, 0, 4, 0],
        .setup #v[0x80, 6, 0, 1, 0, 0, 18, 0]] = x ∧ ¬ x.ServedBy x.begun) ∧
    ∃ x : Exchange 1 Unit,
      (start ()).run [.setFallback Handler.idle, .setup #v[0x40, 32, 0, 0, 0, 0, 4, 0],
        .setFallback Handler.idle] = x ∧ ¬ x.ServedBy x.begun := by
  refine ⟨⟨_, rfl, fun h => ?_⟩, ⟨_, rfl, fun h => ?_⟩⟩
  · have hjournal := congrArg (fun out => out.2.2) h.readFinished
    revert hjournal
    decide +kernel
  · have hjournal := congrArg (fun out => out.2.2) h.readFinished
    revert hjournal
    decide +kernel

end Exchange

end Usb

end Luminaire
