import PadScript.Pad.Report

/-!
# The session with the host

A pad with a protocol of its own is asked for things by the host, in reports of which the first byte
is the id: USB commands (`0x80`), among them connecting and disconnecting, and subcommands (`0x01`),
among them reads of a flash memory. `Session.handle` answers a report with at most one. While the
host is connected, `Session.periodic?` is the report of what is held.

Both kinds of report carry a counter that is taken from the time since the session began.
-/

namespace PadScript

/-- A report to the host: its id and 63 bytes. -/
structure InputReport where
  /-- The id. -/
  id : UInt8
  /-- The bytes behind the id. -/
  payload : List UInt8
deriving DecidableEq, Repr

namespace InputReport

/-- The number of bytes behind the id. -/
def payloadLength : Nat := 63

/-- Bytes cut off, or filled up with zeros, to a length. -/
def fit (length : Nat) (bytes : List UInt8) : List UInt8 :=
  (bytes ++ .replicate length 0).take length

/-- The report with these bytes, cut off or filled up. -/
def ofData (id : UInt8) (data : List UInt8) : InputReport := ⟨id, fit payloadLength data⟩

/-- The id and the bytes behind it. -/
def bytes (r : InputReport) : List UInt8 := r.id :: r.payload

/-- The id of a report of what is held. -/
def fullInputId : UInt8 := 0x30

/-- The id of an answer to a subcommand. -/
def subcommandReplyId : UInt8 := 0x21

/-- The id of an answer to a USB command. -/
def usbReplyId : UInt8 := 0x81

end InputReport

namespace Flash

/-- The serial number. -/
def serialNumber : List UInt8 := .replicate 15 0 ++ [0x01]

/-- What is found in the flash memory, by address. -/
def table : List (UInt16 × List UInt8) := [
  -- serial number
  (0x6000, serialNumber),
  -- colours of body, buttons and grips
  (0x6050, [0xBC, 0x11, 0x42, 0x75, 0xA9, 0x28, 0xFF, 0xFF, 0xFF, 0xFF, 0xFF, 0xFF]),
  -- calibration of the sticks: none by the factory, none by the user
  (0x603D, .replicate 18 0xFF),
  (0x8010, .replicate 24 0xFF),
  -- parameters of the second stick
  (0x6098, .replicate 18 0x00),
  -- offsets of the motion sensor
  (0x6080, [0x50, 0xFD, 0x00, 0x00, 0xC6, 0x0F]),
  -- parameters of the sticks
  (0x6086, [0x00, 0x40, 0x00, 0x40, 0x00, 0x40, 0xFA, 0xFF, 0xD0, 0xFF, 0xC7, 0xFF, 0x3B, 0x34,
    0x3B, 0x34, 0x3B, 0x34]),
  -- calibration of the motion sensor
  (0x6020, [0x09, 0x01, 0x18, 0xFF, 0xED, 0xFF, 0x00, 0x40, 0x00, 0x40, 0x00, 0x40, 0xFA, 0xFF,
    0xD0, 0xFF, 0xC7, 0xFF, 0x3B, 0x34, 0x3B, 0x34, 0x3B, 0x34])]

/-- The most bytes that an answer can carry. -/
def maxLength : Nat := 49

/-- The bytes at an address, filled up with `0xFF`; none at an address that is not in the table. -/
def read? (address : UInt16) (length : UInt8) : Option (List UInt8) :=
  (table.lookup address).map fun blob =>
    let length := min length.toNat maxLength
    (blob ++ .replicate length 0xFF).take length

end Flash

/-- The state of a session. -/
structure Session where
  /-- The host is connected. -/
  connected : Bool
  /-- When the session began. -/
  start : Nat
deriving DecidableEq, Repr

namespace Session

/-- The address of the pad. -/
def macAddress : List UInt8 := [0x00, 0x00, 0x5E, 0x00, 0x53, 0x5E]

/-- How often the counter counts in a second. -/
def counterRate : Nat := 360

/-- The session that begins at a time. -/
def begin (start : Nat) : Session := ⟨false, start⟩

/-- The counter at a time. The product is kept in 64 bits. -/
def counter (s : Session) (now : Nat) : UInt8 :=
  .ofNat ((now - s.start) * counterRate % UInt64.size / 1000000)

/-- A report with the counter, with what is held, and with more behind it. -/
def stamped (s : Session) (id : UInt8) (held : PadState) (tail : List UInt8) (now : Nat) :
    InputReport :=
  .ofData id (s.counter now :: held.proBlock ++ tail)

/-- The report of what is held, while the host is connected. -/
def periodic? (s : Session) (held : PadState) (now : Nat) : Option InputReport :=
  if s.connected then some (s.stamped InputReport.fullInputId held [] now) else none

/-- The session after a USB command, and the answer to it. -/
def usbCommand (s : Session) : (payload : List UInt8) → Session × Option InputReport
  | 0x01 :: _ => (s, some (.ofData InputReport.usbReplyId ([0x01, 0x00, 0x03] ++ macAddress)))
  | 0x02 :: _ => (s, some (.ofData InputReport.usbReplyId [0x02]))
  | 0x03 :: _ => (s, some (.ofData InputReport.usbReplyId [0x03]))
  | 0x04 :: _ => ({ s with connected := true }, none)
  | 0x05 :: _ => ({ s with connected := false }, none)
  | _ => (s, none)

/-- The bytes before the subcommand: a counter and the strength of two motors. -/
def subcommandIndex : Nat := 9

/-- The answer to a read of the flash memory: what was asked for, and what was found. -/
def flashReply? : (args : List UInt8) → Option (List UInt8)
  | low :: high :: _ :: _ :: length :: _ =>
    (Flash.read? (low.toUInt16 ||| high.toUInt16 <<< 8) length).map fun found =>
      ([low, high, 0x00, 0x00, length] ++ found).take Flash.maxLength
  | _ => none

/-- The category and the data of the answer to a subcommand; none to one that is not supported. -/
def subcommandAnswer? (subcommand : UInt8) (args : List UInt8) : Option (UInt8 × List UInt8) :=
  if subcommand = 0x01 then some (0x81, [0x03])
  else if subcommand = 0x02 then
    some (0x82, [0x04, 0x21, 0x03, 0x02] ++ macAddress ++ [0x01, 0x01])
  else if subcommand = 0x04 then some (0x83, [])
  else if subcommand = 0x10 then (flashReply? args).map (0x90, ·)
  else if subcommand = 0x21 then
    some (0xA0, [0x01, 0x00, 0xFF, 0x00, 0x08, 0x00, 0x1B, 0x01])
  else if subcommand ∈ ([0x03, 0x08, 0x22, 0x30, 0x33, 0x38, 0x40, 0x41, 0x48] : List UInt8) then
    some (0x80, [])
  else none

/-- The answer to the payload of a report with a subcommand. -/
def subcommand? (s : Session) (payload : List UInt8) (held : PadState) (now : Nat) :
    Option InputReport :=
  match payload.drop subcommandIndex with
  | [] => none
  | subcommand :: args =>
    (subcommandAnswer? subcommand args).map fun (category, data) =>
      s.stamped InputReport.subcommandReplyId held (category :: subcommand :: data) now

/-- The session after a report of the host, and the answer to it. `held` is what is held. -/
def handle (s : Session) (report : List UInt8) (held : PadState) (now : Nat) :
    Session × Option InputReport :=
  match report with
  | 0x80 :: payload => s.usbCommand payload
  | 0x01 :: payload => (s, s.subcommand? payload held now)
  | _ => (s, none)

end Session

end PadScript
