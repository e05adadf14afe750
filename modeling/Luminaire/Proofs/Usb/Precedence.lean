import Luminaire.Proofs.Usb.Exchange

/-!
# Which handler comes first

Whatever comes to a router and in whatever order, its handlers are those that were offered first, as
many as it has places, in the order in which they were offered, and its fallback is the one that was
set last (`Router.handlers_run`, `Router.fallback_run`). The route that it remembers has no part in
this, so that nothing of it gets into the choice for the next packet.

What a vendor request then leads to is the relation `Serves`. It has a case for each end that the
search can come to: a handler that claims the request, a fallback that is not asked, or nobody.
-/

namespace Luminaire

namespace Usb

section Packets

/-- A word in two bytes, low byte first. -/
def wordBytes (w : UInt16) : List UInt8 := [UInt8.ofNat w.toNat, UInt8.ofNat (w.toNat / 256)]

theorem wordBytes_word (low high : UInt8) : wordBytes (word low high) = [low, high] := by
  have hlow := low.toNat_lt
  have hhigh := high.toNat_lt
  have hfirst : UInt8.ofNat (word low high).toNat = low := by
    apply UInt8.toNat_inj.1
    rw [toNat_word, UInt8.toNat_ofNat']
    omega
  have hsecond : UInt8.ofNat ((word low high).toNat / 256) = high := by
    apply UInt8.toNat_inj.1
    rw [toNat_word, UInt8.toNat_ofNat']
    omega
  rw [wordBytes, hfirst, hsecond]

namespace SetupPacket

/-- The packet as it is sent: two single bytes and three words. -/
def bytes (p : SetupPacket) : List UInt8 :=
  [p.requestType, p.request] ++ wordBytes p.value ++ wordBytes p.index ++ wordBytes p.length

/-- What is read from eight bytes is the packet that was sent as these bytes. -/
theorem bytes_ofBytes (bytes : Vector UInt8 8) : (ofBytes bytes).bytes = bytes.toList := by
  obtain ⟨⟨sent⟩, hsize⟩ := bytes
  match sent, hsize with
  | [b₀, b₁, b₂, b₃, b₄, b₅, b₆, b₇], _ =>
      show [b₀, b₁] ++ wordBytes (word b₂ b₃) ++ wordBytes (word b₄ b₅) ++ wordBytes (word b₆ b₇) = _
      rw [wordBytes_word, wordBytes_word, wordBytes_word]
      rfl

/-- The vendors' type is the third of the four that bits five and six can select. -/
theorem isVendor_iff (p : SetupPacket) :
    p.isVendor = true ↔ p.requestType.toNat / 32 % 4 = 2 := by
  have hall : ∀ m < 256, (UInt8.ofNat m &&& typeMask == vendorType) = true ↔ m / 32 % 4 = 2 := by
    decide +kernel
  have hbyte := hall p.requestType.toNat p.requestType.toNat_lt
  rwa [UInt8.ofNat_toNat] at hbyte

end SetupPacket

end Packets

section Runs

variable {capacity : Nat} {σ : Type}

namespace Input

/-- The handler that asks for a place. -/
def offer? : Input σ → Option (Handler σ)
  | register h => some h
  | _ => none

/-- The handler that is to be the fallback. -/
def fallback? : Input σ → Option (Handler σ)
  | setFallback h => some h
  | _ => none

end Input

/-- What a router says to an input. -/
inductive Reply where
  | registered (taken : Bool)
  | fallbackSet
  | begun (count : UInt16)
  | written (complete : Bool)
  | read (count : Nat) (buffer : List UInt8)
  | readFinished
deriving DecidableEq

namespace Router

/-- The answer to an input, and the router after it. -/
def serve (r : Router capacity σ) : Input σ → StateM σ (Reply × Router capacity σ)
  | .register h =>
      match r.register? h with
      | some r => pure (.registered true, r)
      | none => pure (.registered false, r)
  | .setFallback h => pure (.fallbackSet, r.setFallback h)
  | .setup bytes => do
      let (count, r) ← r.setup bytes
      return (.begun count, r)
  | .write data => return (.written (← r.write data), r)
  | .read buffer => do
      let (count, buffer) ← r.read buffer
      return (.read count buffer, r)
  | .readFinished => do
      r.readFinished
      return (.readFinished, r)

/-- The answers to some inputs, the first one first, and the router after them. -/
def run (r : Router capacity σ) : List (Input σ) → StateM σ (List Reply × Router capacity σ)
  | [] => pure ([], r)
  | input :: rest => do
      let (reply, r) ← r.serve input
      let (replies, r) ← r.run rest
      return (reply :: replies, r)

theorem run_cons (r : Router capacity σ) (input : Input σ) (rest : List (Input σ)) (s : σ) :
    r.run (input :: rest) s =
      let ((reply, r), s) := r.serve input s
      let ((replies, r), s) := r.run rest s
      ((reply :: replies, r), s) := rfl

/-- There is a place as long as not all of them are taken. -/
theorem isSome_register?_iff (r : Router capacity σ) (h : Handler σ) :
    (r.register? h).isSome ↔ r.handlers.length < capacity := by
  rw [register?]
  split <;> simp_all

theorem serve_register (r : Router capacity σ) (h : Handler σ) (s : σ) :
    r.serve (.register h) s =
      ((.registered (decide (r.handlers.length < capacity)), (r.register? h).getD r), s) := by
  rw [serve]
  have hroom := r.isSome_register?_iff h
  cases hregister : r.register? h with
  | some r' =>
      rw [hregister] at hroom
      rw [decide_eq_true (hroom.1 rfl)]
      rfl
  | none =>
      rw [hregister] at hroom
      rw [decide_eq_false fun hlt => absurd (hroom.2 hlt) (by simp)]
      rfl

/-- A refused registration is answered, and everything else is as without it. -/
theorem run_register_of_full {r : Router capacity σ} (hfull : ¬ r.handlers.length < capacity)
    (h : Handler σ) (later : List (Input σ)) (s : σ) :
    r.run (.register h :: later) s =
      ((.registered false :: (r.run later s).1.1, (r.run later s).1.2), (r.run later s).2) := by
  have hrefused : r.register? h = none := by
    rw [← Option.not_isSome_iff_eq_none, isSome_register?_iff]
    exact hfull
  rw [run_cons, serve_register, hrefused, decide_eq_false hfull, Option.getD_none]
  rfl

/-- A setup packet can change the route that is remembered, but nothing else. -/
theorem exists_active_setup (r : Router capacity σ) (bytes : Vector UInt8 8) (s : σ) :
    ∃ active, (r.setup bytes s).1.2 = { r with active := active } := by
  cases hvendor : (SetupPacket.ofBytes bytes).isVendor with
  | true =>
      rw [r.setup_of_vendor hvendor rfl]
      refine ⟨(r.route (SetupPacket.ofBytes bytes).request s).1, ?_⟩
      split <;> rfl
  | false => exact ⟨r.active, by rw [r.setup_of_other hvendor]⟩

/-- The handlers after an input: one more if one asks for a place and there is one. -/
theorem handlers_serve (r : Router capacity σ) (input : Input σ) (s : σ) :
    (r.serve input s).1.2.handlers = (r.handlers ++ input.offer?.toList).take capacity := by
  have hsame : (r.handlers ++ []).take capacity = r.handlers := by
    rw [List.append_nil, List.take_of_length_le r.length_le]
  cases input with
  | register h =>
      rw [serve_register]
      cases hregister : r.register? h with
      | some r' =>
          have hr' := r'.length_le
          rw [(of_register? hregister).1] at hr'
          rw [Option.getD_some, (of_register? hregister).1]
          exact (List.take_of_length_le hr').symm
      | none =>
          have hfull : ¬ r.handlers.length < capacity := by
            rw [← r.isSome_register?_iff h, hregister]
            simp
          have hlength : r.handlers.length = capacity :=
            Nat.le_antisymm r.length_le (Nat.le_of_not_lt hfull)
          exact (List.take_left' hlength).symm
  | setup bytes =>
      obtain ⟨active, hactive⟩ := r.exists_active_setup bytes s
      show (r.setup bytes s).1.2.handlers = _
      rw [hactive]
      exact hsame.symm
  | _ => exact hsame.symm

theorem fallback_serve (r : Router capacity σ) (input : Input σ) (s : σ) :
    (r.serve input s).1.2.fallback = input.fallback?.or r.fallback := by
  cases input with
  | register h =>
      rw [serve_register]
      cases hregister : r.register? h with
      | some r' => exact (of_register? hregister).2.1
      | none => rfl
  | setup bytes =>
      obtain ⟨active, hactive⟩ := r.exists_active_setup bytes s
      show (r.setup bytes s).1.2.fallback = _
      rw [hactive]
      rfl
  | _ => rfl

/-- A router has the handlers that were offered first, as many as it has places. -/
theorem handlers_run (r : Router capacity σ) (inputs : List (Input σ)) (s : σ) :
    (r.run inputs s).1.2.handlers =
      (r.handlers ++ inputs.filterMap Input.offer?).take capacity := by
  induction inputs generalizing r s with
  | nil =>
      rw [List.filterMap_nil, List.append_nil, List.take_of_length_le r.length_le]
      rfl
  | cons input rest ih =>
      rw [run_cons]
      refine (ih (r.serve input s).1.2 (r.serve input s).2).trans ?_
      have hcons : (input :: rest).filterMap Input.offer? =
          input.offer?.toList ++ rest.filterMap Input.offer? := by
        cases input <;> rfl
      rw [handlers_serve, hcons, ← List.append_assoc]
      generalize r.handlers ++ input.offer?.toList = first
      -- what does not fit into the first part does not fit later either
      rcases Nat.le_total first.length capacity with hle | hle
      · rw [List.take_of_length_le hle]
      · rw [List.take_append_of_le_length hle, List.take_append_of_le_length (by simp [hle]),
          List.take_take, Nat.min_self]

/-- The fallback of a router is the one that was set last. -/
theorem fallback_run (r : Router capacity σ) (inputs : List (Input σ)) (s : σ) :
    (r.run inputs s).1.2.fallback = (inputs.filterMap Input.fallback?).getLast?.or r.fallback := by
  induction inputs generalizing r s with
  | nil => rfl
  | cons input rest ih =>
      rw [run_cons]
      refine (ih (r.serve input s).1.2 (r.serve input s).2).trans ?_
      rw [fallback_serve, ← Option.or_assoc]
      refine congrArg (Option.or · r.fallback) ?_
      cases hinput : input.fallback? with
      | none => rw [List.filterMap_cons_none hinput, Option.or_none]
      | some h =>
          rw [List.filterMap_cons_some hinput, List.getLast?_cons]
          cases (rest.filterMap Input.fallback?).getLast? <;> rfl

end Router

end Runs

section Parties

variable {capacity : Nat} {σ : Type}

/-- The input with its handler, if it brings one, under this number in the journal. -/
def Input.journaled (number : Nat) : Input σ → Input (σ × Journal)
  | register h => .register (h.journaled number)
  | setFallback h => .setFallback (h.journaled number)
  | setup bytes => .setup bytes
  | write data => .write data
  | read buffer => .read buffer
  | readFinished => .readFinished

/-- The inputs as the router sees them, each with the number for a handler that it brings. -/
def seated (inputs : List (Nat × Input σ)) : List (Input (σ × Journal)) :=
  inputs.map fun e => e.2.journaled e.1

/-- The parties behind the handlers that `pick` takes from the inputs, in order. -/
def parties (pick : Input σ → Option (Handler σ)) (inputs : List (Nat × Input σ)) :
    List (Party σ) :=
  inputs.filterMap fun e => (pick e.2).map (Party.mk e.1)

/-- The parties that ask for a place. -/
def offers (inputs : List (Nat × Input σ)) : List (Party σ) := parties Input.offer? inputs

/-- The parties that are set as the fallback. -/
def fallbacks (inputs : List (Nat × Input σ)) : List (Party σ) := parties Input.fallback? inputs

theorem filterMap_seated {pick : Input σ → Option (Handler σ)}
    {pickSeat : Input (σ × Journal) → Option (Handler (σ × Journal))}
    (h : ∀ number (input : Input σ),
      pickSeat (input.journaled number) = (pick input).map fun g => g.journaled number)
    (inputs : List (Nat × Input σ)) :
    (seated inputs).filterMap pickSeat = (parties pick inputs).map Party.seat := by
  rw [seated, parties, List.filterMap_map, List.map_filterMap]
  congr 1
  funext e
  rw [Function.comp_apply, h, Option.map_map]
  rfl

theorem filterMap_offer?_seated (inputs : List (Nat × Input σ)) :
    (seated inputs).filterMap Input.offer? = (offers inputs).map Party.seat :=
  filterMap_seated (fun number input => by cases input <;> rfl) inputs

theorem filterMap_fallback?_seated (inputs : List (Nat × Input σ)) :
    (seated inputs).filterMap Input.fallback? = (fallbacks inputs).map Party.seat :=
  filterMap_seated (fun number input => by cases input <;> rfl) inputs

/-- A vendor request serves the host with a number of bytes, leaves a state, and makes calls. -/
inductive Serves (registered : List (Party σ)) (fallback : Option (Party σ)) (packet : SetupPacket)
    (s : σ) : UInt16 → σ → Journal → Prop
  /-- The first party that claims the request gets it, and those after it are not asked. -/
  | claimed {before after : List (Party σ)} {p : Party σ} {s₁ : σ}
      (hregistered : registered = before ++ p :: after)
      (hbefore : Declined packet.request before s s₁)
      (hclaims : (p.handler.claims packet.request s₁).1 = true) :
      Serves registered fallback packet s
        (p.handler.setup packet (p.handler.claims packet.request s₁).2).1
        (p.handler.setup packet (p.handler.claims packet.request s₁).2).2
        (asked packet.request ((before ++ [p]).map Party.number) ++ [(p.number, .setup packet)])
  /-- What nobody claims goes to the fallback, which is not asked. -/
  | unclaimed {p : Party σ} {s₁ : σ} (hall : Declined packet.request registered s s₁)
      (hfallback : fallback = some p) :
      Serves registered fallback packet s (p.handler.setup packet s₁).1 (p.handler.setup packet s₁).2
        (asked packet.request (registered.map Party.number) ++ [(p.number, .setup packet)])
  /-- There is no one to get it. -/
  | nobody {s₁ : σ} (hall : Declined packet.request registered s s₁) (hfallback : fallback = none) :
      Serves registered fallback packet s 0 s₁
        (asked packet.request (registered.map Party.number))

namespace Router

/-- A vendor request is served, and nothing but the calls for it gets into the journal. -/
theorem serves_setup {r : Router capacity (σ × Journal)} {registered : List (Party σ)}
    {fallback : Option (Party σ)} (hhandlers : r.handlers = registered.map Party.seat)
    (hfallback : r.fallback = fallback.map Party.seat) {bytes : Vector UInt8 8}
    (hvendor : (SetupPacket.ofBytes bytes).isVendor = true) (s : σ) (journal : Journal) :
    ∃ count r' s' calls, r.setup bytes (s, journal) = ((count, r'), s', journal ++ calls) ∧
      Serves registered fallback (SetupPacket.ofBytes bytes) s count s' calls := by
  rcases firstClaiming_seats (SetupPacket.ofBytes bytes).request registered 0 s journal with
    ⟨before, p, after, s₁, hregistered, hbefore, hclaims, hfound⟩ | ⟨s₁, hall, hfound⟩
  · rw [← hhandlers, Nat.zero_add] at hfound
    have hactive : activeHandler? { r with active := some (.handler before.length) } =
        some p.seat := by
      show r.handlers[before.length]? = some p.seat
      rw [hhandlers, hregistered]
      simp
    refine ⟨_, { r with active := some (.handler before.length) }, _, _, ?_,
      Serves.claimed hregistered hbefore hclaims⟩
    rw [r.setup_of_vendor hvendor (route_of_found hfound), hactive, ← List.append_assoc]
    rfl
  · rw [← hhandlers] at hfound
    have hroute := route_of_declined hfound
    cases fallback with
    | some p =>
        have hactive : activeHandler? { r with active := some .fallback } = some p.seat := hfallback
        refine ⟨_, { r with active := some .fallback }, _, _, ?_, Serves.unclaimed hall rfl⟩
        rw [hfallback] at hroute
        rw [r.setup_of_vendor hvendor hroute, Option.map_some, Option.map_some, hactive,
          ← List.append_assoc]
        rfl
    | none =>
        rw [hfallback] at hroute
        exact ⟨0, { r with active := none }, _, _, r.setup_of_vendor hvendor hroute,
          Serves.nobody hall rfl⟩

/-- Whatever came to a router before, there is a place for one more handler exactly if fewer than
`capacity` are registered, and being refused one makes no difference to anything that comes later. A
vendor request goes to the first of the registered handlers that claims it, or else to the fallback
that was set last. A packet of another type is answered with zero, and no handler hears of it. -/
theorem requests_served_in_order (shared : σ) (inputs : List (Nat × Input σ)) :
    let r := ((empty : Router capacity (σ × Journal)).run (seated inputs) (shared, [])).1.2
    let registered := (offers inputs).take capacity
    (∀ h s, (r.serve (.register h) s).1.1 = .registered (decide (registered.length < capacity))) ∧
    (¬ registered.length < capacity → ∀ h later s, r.run (.register h :: later) s =
      ((.registered false :: (r.run later s).1.1, (r.run later s).1.2), (r.run later s).2)) ∧
    ∀ (bytes : Vector UInt8 8) (s : σ) (journal : Journal),
      let packet := SetupPacket.ofBytes bytes
      packet.bytes = bytes.toList ∧
      (packet.requestType.toNat / 32 % 4 = 2 → ∃ count r' s' calls,
        r.setup bytes (s, journal) = ((count, r'), s', journal ++ calls) ∧
        Serves registered (fallbacks inputs).getLast? packet s count s' calls) ∧
      (packet.requestType.toNat / 32 % 4 ≠ 2 →
        r.setup bytes (s, journal) = ((0, r), s, journal)) := by
  intro r registered
  have hhandlers : r.handlers = registered.map Party.seat := by
    have hrun := handlers_run (empty : Router capacity (σ × Journal)) (seated inputs) (shared, [])
    rw [filterMap_offer?_seated] at hrun
    exact hrun.trans List.map_take.symm
  have hfallback : r.fallback = (fallbacks inputs).getLast?.map Party.seat := by
    have hrun := fallback_run (empty : Router capacity (σ × Journal)) (seated inputs) (shared, [])
    rw [filterMap_fallback?_seated, List.getLast?_map] at hrun
    exact hrun.trans (Option.or_none)
  have hlength : r.handlers.length = registered.length := by rw [hhandlers, List.length_map]
  refine ⟨fun h s => ?_, fun hfull => run_register_of_full (hlength ▸ hfull),
    fun bytes s journal => ⟨SetupPacket.bytes_ofBytes bytes, fun hvendor => ?_, fun hother => ?_⟩⟩
  · rw [serve_register, hlength]
  · exact serves_setup hhandlers hfallback ((SetupPacket.isVendor_iff _).2 hvendor) s journal
  · have hplain : (SetupPacket.ofBytes bytes).isVendor = false := by
      rw [Bool.eq_false_iff, ne_eq, SetupPacket.isVendor_iff]
      exact hother
    exact r.setup_of_other hplain (s, journal)

/-- Of two handlers that claim every request the first one gets it, and the second is not asked. -/
example :
    ((empty : Router 2 (Unit × Journal)).run (seated [(7, .register Handler.eager),
      (8, .register Handler.eager), (0, .setup #v[0x40, 2, 0, 0, 0, 0, 4, 0])]) ((), [])).2.2 =
      [(7, .claims 2), (7, .setup ⟨0x40, 2, 0, 0, 4⟩)] := by
  decide +kernel

end Router

end Parties

end Usb

end Luminaire
