import PadScript.Control.Config

/-!
# What the host is told about the pad

`DeviceIdentity` is what a device says of itself, and `HidInterface` what its one interface is: the
description of its reports, and its endpoints. Both depend on the profile. The descriptors that a
host asks for are built from them.
-/

namespace PadScript

/-- What a device says of itself. -/
structure DeviceIdentity where
  /-- The number of the maker. -/
  vendor : UInt16
  /-- The number of the product. -/
  product : UInt16
  /-- The release, in decimal digits of four bits. -/
  release : UInt16
  /-- The name of the maker. -/
  manufacturerName : Option String
  /-- The name of the product. -/
  productName : Option String
  /-- The serial number. -/
  serialNumber : Option String
deriving DecidableEq, Repr

/-- An interrupt endpoint. -/
structure Endpoint where
  /-- Its address; the highest bit is set if it leads to the host. -/
  address : UInt8
  /-- The length of its packets. -/
  packetSize : UInt16
  /-- The time between two polls, in milliseconds. -/
  interval : UInt8
deriving DecidableEq, Repr

/-- An interface for reports. -/
structure HidInterface where
  /-- The description of its reports. -/
  reports : List UInt8
  /-- Its endpoints. -/
  endpoints : List Endpoint
deriving DecidableEq, Repr

namespace HidInterface

/-- The reports of a plain joystick: 14 buttons, a hat switch and four axes. -/
def joystickReports : List UInt8 := [
  0x05, 0x01, 0x09, 0x05, 0xA1, 0x01,
  -- 14 buttons and two bits without use
  0x15, 0x00, 0x25, 0x01, 0x35, 0x00, 0x45, 0x01, 0x75, 0x01, 0x95, 0x0E, 0x05, 0x09, 0x19, 0x01,
  0x29, 0x0E, 0x81, 0x02, 0x95, 0x02, 0x81, 0x01,
  -- the hat switch, in the low half of a byte
  0x05, 0x01, 0x25, 0x07, 0x46, 0x3B, 0x01, 0x75, 0x04, 0x95, 0x01, 0x65, 0x14, 0x09, 0x39, 0x81,
  0x42, 0x65, 0x00, 0x95, 0x01, 0x81, 0x01,
  -- the axes of both sticks
  0x26, 0xFF, 0x00, 0x46, 0xFF, 0x00, 0x09, 0x30, 0x09, 0x31, 0x09, 0x32, 0x09, 0x35, 0x75, 0x08,
  0x95, 0x04, 0x81, 0x02,
  -- a byte without use
  0x75, 0x08, 0x95, 0x01, 0x81, 0x01, 0xC0]

/-- The reports of the pad with a protocol of its own, 63 bytes behind each id. -/
def proReports : List UInt8 := [
  0x05, 0x01, 0x15, 0x00, 0x09, 0x04, 0xA1, 0x01,
  -- 0x30, what is held
  0x85, 0x30, 0x05, 0x01, 0x05, 0x09, 0x19, 0x01, 0x29, 0x0A, 0x15, 0x00, 0x25, 0x01, 0x75, 0x01,
  0x95, 0x0A, 0x55, 0x00, 0x65, 0x00, 0x81, 0x02, 0x05, 0x09, 0x19, 0x0B, 0x29, 0x0E, 0x15, 0x00,
  0x25, 0x01, 0x75, 0x01, 0x95, 0x04, 0x81, 0x02, 0x75, 0x01, 0x95, 0x02, 0x81, 0x03, 0x0B, 0x01,
  0x00, 0x01, 0x00, 0xA1, 0x00, 0x0B, 0x30, 0x00, 0x01, 0x00, 0x0B, 0x31, 0x00, 0x01, 0x00, 0x0B,
  0x32, 0x00, 0x01, 0x00, 0x0B, 0x35, 0x00, 0x01, 0x00, 0x15, 0x00, 0x27, 0xFF, 0xFF, 0x00, 0x00,
  0x75, 0x10, 0x95, 0x04, 0x81, 0x02, 0xC0, 0x0B, 0x39, 0x00, 0x01, 0x00, 0x15, 0x00, 0x25, 0x07,
  0x35, 0x00, 0x46, 0x3B, 0x01, 0x65, 0x14, 0x75, 0x04, 0x95, 0x01, 0x81, 0x02, 0x05, 0x09, 0x19,
  0x0F, 0x29, 0x12, 0x15, 0x00, 0x25, 0x01, 0x75, 0x01, 0x95, 0x04, 0x81, 0x02, 0x75, 0x08, 0x95,
  0x34, 0x81, 0x03,
  -- 0x21 and 0x81, answers to the host
  0x06, 0x00, 0xFF,
  0x85, 0x21, 0x09, 0x01, 0x75, 0x08, 0x95, 0x3F, 0x81, 0x03,
  0x85, 0x81, 0x09, 0x02, 0x75, 0x08, 0x95, 0x3F, 0x81, 0x03,
  -- 0x01, 0x10, 0x80 and 0x82, from the host
  0x85, 0x01, 0x09, 0x03, 0x75, 0x08, 0x95, 0x3F, 0x91, 0x83,
  0x85, 0x10, 0x09, 0x04, 0x75, 0x08, 0x95, 0x3F, 0x91, 0x83,
  0x85, 0x80, 0x09, 0x05, 0x75, 0x08, 0x95, 0x3F, 0x91, 0x83,
  0x85, 0x82, 0x09, 0x06, 0x75, 0x08, 0x95, 0x3F, 0x91, 0x83, 0xC0]

end HidInterface

namespace Profile

/-- What the device says of itself. -/
def identity : Profile → DeviceIdentity
  | .proController =>
    ⟨0x057E, 0x2009, 0x0200, some "Nintendo Co., Ltd.", some "Pro Controller",
      some "000000000001"⟩
  | .horipadS => ⟨0x0F0D, 0x00C1, 0x0010, some "HORI CO.,LTD.", some "HORIPAD S", none⟩

/-- The interface of the device. -/
def interface : Profile → HidInterface
  | .proController => ⟨HidInterface.proReports, [⟨0x81, 64, 8⟩, ⟨0x02, 64, 8⟩]⟩
  | .horipadS => ⟨HidInterface.joystickReports, [⟨0x81, 8, 1⟩]⟩

end Profile

namespace Descriptor

/-- A number in two bytes, the lower one first. -/
def word (n : Nat) : List UInt8 := [.ofNat (n % 256), .ofNat (n / 256)]

/-- A descriptor of a kind: its length, its kind and its contents. -/
def ofKind (kind : UInt8) (contents : List UInt8) : List UInt8 :=
  .ofNat (contents.length + 2) :: kind :: contents

/-- The length of a packet of the control endpoint. -/
def controlPacketSize : UInt8 := 64

/-- The class of a device whose functions are grouped in associations. -/
def deviceClass : List UInt8 := [0xEF, 0x02, 0x01]

/-- The index of a string, or 0 if there is none. -/
def stringIndex (index : UInt8) (s : Option String) : UInt8 := if s.isSome then index else 0

/-- The descriptor of the device. -/
def device (d : DeviceIdentity) : List UInt8 :=
  ofKind 0x01 <|
    [0x10, 0x02] ++ deviceClass ++ [controlPacketSize] ++ word d.vendor.toNat ++
      word d.product.toNat ++ word d.release.toNat ++
      [stringIndex 1 d.manufacturerName, stringIndex 2 d.productName,
        stringIndex 3 d.serialNumber, 1]

/-- The descriptor of what the device would be at another speed. -/
def qualifier : List UInt8 :=
  ofKind 0x06 ([0x10, 0x02] ++ deviceClass ++ [controlPacketSize, 1, 0])

/-- The descriptor of capabilities: only that of the bus itself. -/
def capabilities : List UInt8 :=
  let extension := ofKind 0x10 [0x02, 0, 0, 0, 0]
  ofKind 0x0F (word (5 + extension.length) ++ [1]) ++ extension

/-- The descriptor of the reports' description. -/
def hid (i : HidInterface) : List UInt8 :=
  ofKind 0x21 ([0x10, 0x01, 0x00, 0x01, 0x22] ++ word i.reports.length)

/-- The descriptor of an endpoint. -/
def endpoint (e : Endpoint) : List UInt8 :=
  ofKind 0x05 ([e.address, 0x03] ++ word e.packetSize.toNat ++ [e.interval])

/-- The descriptor of the configuration, with those of what belongs to it. -/
def configuration (i : HidInterface) : List UInt8 :=
  let association := ofKind 0x0B [0, 1, 3, 0, 0, 0]
  let interface := ofKind 0x04 [0, 0, .ofNat i.endpoints.length, 3, 0, 0, 0]
  let parts := association ++ interface ++ hid i ++ i.endpoints.flatMap endpoint
  ofKind 0x02 (word (9 + parts.length) ++ [1, 1, 0, 0x80, 250]) ++ parts

/-- The code units of a character. -/
def utf16 (c : Char) : List Nat :=
  let n := c.toNat
  if n < 0x10000 then [n] else [0xD800 + (n - 0x10000) / 0x400, 0xDC00 + (n - 0x10000) % 0x400]

/-- The descriptor of a string. -/
def string (s : String) : List UInt8 := ofKind 0x03 ((s.toList.flatMap utf16).flatMap word)

/-- The descriptor of the languages that strings are in. -/
def languages : List UInt8 := ofKind 0x03 (word 0x0409)

end Descriptor

end PadScript
