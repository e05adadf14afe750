import Luminaire.Proofs.Broker.Separation
import Luminaire.Proofs.Node.Room
import Luminaire.Proofs.Text.Cut
import Luminaire.Proofs.Text.Octets

/-!
# Who a client is

The identifier of a client is written in pieces: the start of the host name, a dash, and two digits
for each byte of the hardware address. The host name is cut at the byte position of its fifth
character, or at its end, and that is never a position within a character, so there is always a
start (`Connection.clientIdExact?_eq`). There is room for four bytes of it. Four characters may need
more, and then there is no identifier, rather than one that is cut.

The digits are read back as the address (`Hexadecimal.Spells`), so that under one host name no two
addresses have the same identifier.
-/

namespace Luminaire

namespace Hexadecimal

/-- A hexadecimal digit that is no lowercase letter. -/
def IsUppercaseDigit (c : Char) : Prop := '0' ≤ c ∧ c ≤ '9' ∨ 'A' ≤ c ∧ c ≤ 'F'

instance (c : Char) : Decidable (IsUppercaseDigit c) :=
  inferInstanceAs (Decidable ('0' ≤ c ∧ c ≤ '9' ∨ 'A' ≤ c ∧ c ≤ 'F'))

/-- The bytes that are written with two digits each. -/
def bytesOfDigits? : List Char → Option (List UInt8)
  | [] => some []
  | [_] => none
  | high :: low :: digits =>
      (byteOfDigits? high low).bind fun b => (bytesOfDigits? digits).map (b :: ·)

/-- The uppercase digits of the bytes, two for each. -/
structure Spells (digits : List Char) (bytes : List UInt8) : Prop where
  length_eq : digits.length = 2 * bytes.length
  uppercase : ∀ d ∈ digits, IsUppercaseDigit d
  read : bytesOfDigits? digits = some bytes

theorem IsUppercaseDigit.toNat_lt {c : Char} (h : IsUppercaseDigit c) : c.toNat < 128 :=
  toNat_lt_of_isDigit (h.imp_right Or.inr)

theorem isUppercaseDigit_digit : ∀ value < 16, IsUppercaseDigit (digit value) := by
  decide

theorem spells_digits (bytes : List UInt8) : Spells (bytes.flatMap digitsOfByte) bytes := by
  induction bytes with
  | nil => exact ⟨rfl, (fun _ hd => nomatch hd), rfl⟩
  | cons b bytes ih =>
      have hlt : b.toNat < 256 := b.toNat_lt
      refine ⟨?_, ?_, ?_⟩
      · rw [List.flatMap_cons, List.length_append, length_digitsOfByte, ih.length_eq,
          List.length_cons, Nat.mul_succ, Nat.add_comm]
      · intro d hd
        rw [List.flatMap_cons, digitsOfByte] at hd
        rcases List.mem_cons.1 hd with rfl | hd
        · exact isUppercaseDigit_digit _ (by omega)
        · rcases List.mem_cons.1 hd with rfl | hd
          · exact isUppercaseDigit_digit _ (by omega)
          · exact ih.uppercase d hd
      · rw [List.flatMap_cons, digitsOfByte, List.cons_append, List.cons_append, List.nil_append,
          bytesOfDigits?, byteOfDigits?_digitsOfByte, Option.bind_some, ih.read, Option.map_some]

theorem Spells.unique {digits : List Char} {bytes bytes' : List UInt8} (h : Spells digits bytes)
    (h' : Spells digits bytes') : bytes = bytes' :=
  Option.some.inj (h.read.symm.trans h'.read)

end Hexadecimal

namespace Connection

/-- The byte position at which the start of a host name ends: that of its fifth character, or of the
end of the name if it has no more than four. -/
def cutPosition (hostname : String) : Nat :=
  (positions 0 hostname.toList)[4]?.getD hostname.utf8ByteSize

/-- The pieces of the identifier. -/
def pieces (start : List Char) (mac : Vector UInt8 6) : List String :=
  String.ofList start :: "-" :: mac.toList.map fun b => String.ofList (Hexadecimal.digitsOfByte b)

/-- The identifier of a client, if there is room for each of its pieces. There is no answer at all
if the host name cannot be cut. -/
def clientIdExact? (hostname : String) (mac : Vector UInt8 6) :
    Option (Option (Text clientIdCapacity)) :=
  (frontAt? (cutPosition hostname) hostname.toList).map fun start =>
    Text.ofPieces? (pieces start mac)

theorem frontAt?_cutPosition (hostname : String) :
    frontAt? (cutPosition hostname) hostname.toList = some (hostname.toList.take 4) := by
  have hend := getD_positions 0 4 hostname.toList
  rw [Nat.zero_add, Nat.zero_add, ← utf8ByteSize_eq] at hend
  exact (frontAt?_eq_some_iff _ _ _).2 ⟨List.take_prefix 4 hostname.toList, hend.symm⟩

theorem join_pieces (hostname : String) (mac : Vector UInt8 6) :
    String.join (pieces (hostname.toList.take 4) mac) = clientName hostname mac := by
  apply String.toList_injective
  simp [pieces, clientName, List.flatMap_map]

/-- The host name can be cut where it is cut, and writing in pieces is writing at once. -/
theorem clientIdExact?_eq (hostname : String) (mac : Vector UInt8 6) :
    clientIdExact? hostname mac = some (Text.ofString? (clientName hostname mac)) := by
  rw [clientIdExact?, frontAt?_cutPosition, Option.map_some, Text.ofPieces?_eq, join_pieces]

theorem utf8ByteSize_clientName (hostname : String) (mac : Vector UInt8 6) :
    (clientName hostname mac).utf8ByteSize = utf8Length (hostname.toList.take 4) + 13 := by
  have hspells := Hexadecimal.spells_digits mac.toList
  have hdigits : utf8Length (mac.toList.flatMap Hexadecimal.digitsOfByte) = 12 := by
    rw [utf8Length_of_ascii fun d hd => (hspells.uppercase d hd).toNat_lt, hspells.length_eq,
      Vector.length_toList]
  have hdash : '-'.utf8Size = 1 := rfl
  rw [clientName, utf8ByteSize_ofList, utf8Length_append, utf8Length_cons, hdigits, hdash]

theorem isOk_ofSettings_iff (s : Settings) (hostname : String) (mac : Vector UInt8 6) :
    (ofSettings s hostname mac).isOk = true ↔ utf8Length (hostname.toList.take 4) ≤ 4 := by
  have hsize := utf8ByteSize_clientName hostname mac
  have hcapacity : clientIdCapacity = 17 := rfl
  cases h : ofSettings s hostname mac with
  | error e =>
      have hlong := (ofSettings_eq_error_iff s hostname mac e).1 h
      simp only [Except.isOk, Except.toBool, Bool.false_eq_true, false_iff]
      omega
  | ok c =>
      simp only [Except.isOk, Except.toBool, true_iff]
      refine Nat.le_of_not_lt fun hlong => ?_
      rw [(ofSettings_eq_error_iff s hostname mac {}).2 (by omega)] at h
      cases h

/-- What the connection of a node is made of. -/
structure IsFor (c : Connection) (s : Settings) (hostname : String) (mac : Vector UInt8 6) :
    Prop where
  clientId : ∃ digits : List Char, digits.length = 12 ∧ Hexadecimal.Spells digits mac.toList ∧
    c.clientId.content.toList = hostname.toList.take 4 ++ '-' :: digits
  broker : c.broker = s.broker
  user : c.user = s.user
  password : c.password = s.password
  willTopic : c.willTopic.content = s.root.content ++ "/status/lwt"

theorem isFor_of_ofSettings {s : Settings} {hostname : String} {mac : Vector UInt8 6}
    {c : Connection} (h : ofSettings s hostname mac = .ok c) : c.IsFor s hostname mac := by
  have hspells := Hexadecimal.spells_digits mac.toList
  rw [ofSettings] at h
  split at h
  next clientId willTopic hname hwill =>
    obtain rfl := Except.ok.inj h
    have hlength : (mac.toList.flatMap Hexadecimal.digitsOfByte).length = 12 := by
      rw [hspells.length_eq, Vector.length_toList]
    refine ⟨⟨_, hlength, hspells, ?_⟩, rfl, rfl, rfl,
      (Topic.isWhole_will s.root.content).content_eq willTopic hwill⟩
    rw [← (Text.ofString?_eq_some_iff _ _).1 hname, clientName, String.toList_ofList]
  next => cases h

theorem IsFor.mac_eq {c c' : Connection} {s s' : Settings} {hostname : String}
    {mac mac' : Vector UInt8 6} (h : c.IsFor s hostname mac) (h' : c'.IsFor s' hostname mac')
    (hsame : c.clientId = c'.clientId) : mac = mac' := by
  obtain ⟨digits, -, hspells, hname⟩ := h.clientId
  obtain ⟨digits', -, hspells', hname'⟩ := h'.clientId
  rw [hsame, hname'] at hname
  obtain ⟨-, rfl⟩ := List.cons.inj (List.append_cancel_left hname)
  exact Vector.toList_inj.1 (hspells.unique hspells')

/-- The host name of a client can always be cut, and there is a connection exactly if the first four
characters of it, or all if there are fewer, have at most four bytes. The identifier is then these
characters, a dash and twelve uppercase digits that spell the hardware address; broker, user name
and password are those of the settings, and the will is told under the root followed by
`/status/lwt`. Under one host name, different addresses have different identifiers, whatever the
settings. -/
theorem clients_told_apart (s : Settings) (hostname : String) (mac : Vector UInt8 6) :
    clientIdExact? hostname mac = some (Text.ofString? (clientName hostname mac)) ∧
    ((ofSettings s hostname mac).isOk = true ↔ utf8Length (hostname.toList.take 4) ≤ 4) ∧
    (∀ c, ofSettings s hostname mac = .ok c → c.IsFor s hostname mac) ∧
    ∀ (s' : Settings) (mac' : Vector UInt8 6) (c c' : Connection), mac ≠ mac' →
      ofSettings s hostname mac = .ok c → ofSettings s' hostname mac' = .ok c' →
      c.clientId ≠ c'.clientId :=
  ⟨clientIdExact?_eq hostname mac, isOk_ofSettings_iff s hostname mac,
    fun _ h => isFor_of_ofSettings h, fun _ _ _ _ hne h h' hsame =>
      hne ((isFor_of_ofSettings h).mac_eq (isFor_of_ofSettings h') hsame)⟩

/-- A host name of three characters in four bytes, with two addresses that differ in the last bit,
and one whose first four characters have five bytes. -/
theorem clients_told_apart_south :
    let s := (Settings.create #v[192, 168, 1, 2] "home/lights").withCredentials "user" "secret"
    let mac : Vector UInt8 6 := #v[0x00, 0x22, 0xf9, 0x01, 0xab, 0x10]
    (∃ c c' : Connection, ofSettings s "süd" mac = .ok c ∧
      ofSettings s "süd" #v[0x00, 0x22, 0xf9, 0x01, 0xab, 0x11] = .ok c' ∧
      c.clientId.content = "süd-0022F901AB10" ∧ c.clientId ≠ c'.clientId) ∧
    (ofSettings s "lüx-hall" mac).isOk = false := by
  intro s mac
  obtain ⟨-, -, -, hapart⟩ := clients_told_apart s "süd" mac
  obtain ⟨-, hroom, -⟩ := clients_told_apart s "lüx-hall" mac
  have hother : mac ≠ #v[0x00, 0x22, 0xf9, 0x01, 0xab, 0x11] := by decide
  refine ⟨⟨_, _, rfl, rfl, by decide +kernel, hapart s _ _ _ hother rfl rfl⟩, ?_⟩
  exact Bool.eq_false_iff.2 fun hok => absurd (hroom.1 hok) (by decide)

end Connection

end Luminaire
