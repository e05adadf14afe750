/-!
# Setup packets

A control transfer opens with a packet of eight bytes: two single bytes that say what is
requested and three words of two bytes, low byte first. Bits five and six of the first byte
select the type of the request, and one of the four types is left to vendors.
-/

namespace Luminaire

namespace Usb

/-- The packet that opens a control transfer. -/
structure SetupPacket where
  requestType : UInt8
  request : UInt8
  value : UInt16
  index : UInt16
  length : UInt16
deriving DecidableEq

/-- The word that is sent as two bytes, low byte first. -/
def word (low high : UInt8) : UInt16 := UInt16.ofNat (low.toNat + 256 * high.toNat)

theorem toNat_word (low high : UInt8) : (word low high).toNat = low.toNat + 256 * high.toNat := by
  have hl := low.toNat_lt
  have hh := high.toNat_lt
  rw [word, UInt16.toNat_ofNat']
  omega

namespace SetupPacket

/-- The bits of the request type that select the type. -/
def typeMask : UInt8 := 0x60

/-- The type that is left to vendors. -/
def vendorType : UInt8 := 0x40

/-- The packet in eight bytes. -/
def ofBytes (bytes : Vector UInt8 8) : SetupPacket where
  requestType := bytes[0]
  request := bytes[1]
  value := word bytes[2] bytes[3]
  index := word bytes[4] bytes[5]
  length := word bytes[6] bytes[7]

/-- The request is of the type that is left to vendors. -/
def isVendor (p : SetupPacket) : Bool := p.requestType &&& typeMask == vendorType

end SetupPacket

end Usb

end Luminaire
