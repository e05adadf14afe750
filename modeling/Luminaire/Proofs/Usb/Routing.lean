import Luminaire.Usb.Router

/-!
# Routing as a function

The actions of a router are programs over the state that its handlers share. Here they are read as
functions of that state: what a setup packet leads to is the route that is found, and then the
setup of the handler at its end.
-/

namespace Luminaire

namespace Usb

variable {σ α β : Type}

theorem bind_apply (m : StateM σ α) (f : α → StateM σ β) (s : σ) :
    (m >>= f) s = f (m s).1 (m s).2 := rfl

namespace Router

variable {capacity : Nat}

theorem of_register? {r r' : Router capacity σ} {h : Handler σ} (hr : r.register? h = some r') :
    r'.handlers = r.handlers ++ [h] ∧ r'.fallback = r.fallback ∧ r'.active = r.active := by
  rw [register?] at hr
  split at hr
  next =>
    obtain rfl := Option.some.inj hr
    exact ⟨rfl, rfl, rfl⟩
  next => cases hr

theorem firstClaiming_cons (request : UInt8) (place : Nat) (h : Handler σ)
    (rest : List (Handler σ)) (s : σ) :
    firstClaiming request place (h :: rest) s =
      if (h.claims request s).1 then (some place, (h.claims request s).2)
      else firstClaiming request (place + 1) rest (h.claims request s).2 := by
  rw [firstClaiming, bind_apply]
  split <;> rfl

theorem route_apply (r : Router capacity σ) (request : UInt8) (s : σ) :
    r.route request s =
      (match (firstClaiming request 0 r.handlers s).1 with
        | some place => some (.handler place)
        | none => r.fallback.map fun _ => .fallback,
        (firstClaiming request 0 r.handlers s).2) := by
  rw [route, bind_apply]
  cases (firstClaiming request 0 r.handlers s).1 with
  | some place => rfl
  | none => rfl

theorem route_of_found {r : Router capacity σ} {request : UInt8} {place : Nat} {s s' : σ}
    (h : firstClaiming request 0 r.handlers s = (some place, s')) :
    r.route request s = (some (.handler place), s') := by
  rw [route_apply, h]

theorem route_of_declined {r : Router capacity σ} {request : UInt8} {s s' : σ}
    (h : firstClaiming request 0 r.handlers s = (none, s')) :
    r.route request s = (r.fallback.map fun _ => .fallback, s') := by
  rw [route_apply, h]

theorem setup_of_vendor (r : Router capacity σ) {bytes : Vector UInt8 8}
    (h : (SetupPacket.ofBytes bytes).isVendor = true) {s s' : σ} {active : Option Route}
    (hroute : r.route (SetupPacket.ofBytes bytes).request s = (active, s')) :
    r.setup bytes s =
      match ({ r with active := active } : Router capacity σ).activeHandler? with
      | some h =>
          (((h.setup (SetupPacket.ofBytes bytes) s').1, { r with active := active }),
            (h.setup (SetupPacket.ofBytes bytes) s').2)
      | none => ((0, { r with active := active }), s') := by
  rw [setup]
  simp only [h, if_true, bind_apply, hroute]
  cases ({ r with active := active } : Router capacity σ).activeHandler? with
  | some h => rfl
  | none => rfl

theorem setup_of_other (r : Router capacity σ) {bytes : Vector UInt8 8}
    (h : (SetupPacket.ofBytes bytes).isVendor = false) (s : σ) :
    r.setup bytes s = ((0, r), s) := by
  rw [setup]
  simp only [h]
  rfl

end Router

end Usb

end Luminaire
