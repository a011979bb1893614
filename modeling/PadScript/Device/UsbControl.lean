import PadScript.Device.UsbDescriptor

/-!
# Control requests of the host

Before the host takes reports, it asks the device what it is and tells it what to do, by
`ControlRequest`s. `UsbDevice.respond` answers one. The host configures the device by choosing its
configuration, and that is what the run on power-up waits for.
-/

namespace PadScript

/-- Whom a request is for. -/
inductive Recipient where
  /-- The device. -/
  | device
  /-- The interface whose number is the index of the request. -/
  | interface
  /-- The endpoint whose address is the index of the request. -/
  | endpoint
  /-- Anything else. -/
  | other
deriving DecidableEq, Repr

/-- What defines a request. -/
inductive RequestKind where
  /-- The bus. -/
  | standard
  /-- The class of the interface. -/
  | hid
  /-- Anything else. -/
  | other
deriving DecidableEq, Repr

/-- A control request. -/
structure ControlRequest where
  /-- The host is to be given data. -/
  toHost : Bool
  /-- What defines the request. -/
  kind : RequestKind
  /-- Whom it is for. -/
  recipient : Recipient
  /-- The number of the request. -/
  request : UInt8
  /-- Its value. -/
  value : Nat
  /-- Its index. -/
  index : Nat
  /-- The most bytes to be given, or the number of bytes that follow. -/
  length : Nat
deriving DecidableEq, Repr

/-- The request that a packet of eight bytes spells. -/
def ControlRequest.ofBytes? : List UInt8 → Option ControlRequest
  | [type, request, v0, v1, i0, i1, l0, l1] =>
    let kind :=
      match type.toNat / 32 % 4 with
      | 0 => .standard
      | 1 => .hid
      | _ => .other
    let recipient :=
      match type.toNat % 32 with
      | 0 => .device
      | 1 => .interface
      | 2 => .endpoint
      | _ => .other
    some ⟨128 ≤ type.toNat, kind, recipient, request, v0.toNat + 256 * v1.toNat,
      i0.toNat + 256 * i1.toNat, l0.toNat + 256 * l1.toNat⟩
  | _ => none

/-- The answer to a control request. -/
inductive ControlReply where
  /-- Data for the host. -/
  | data (bytes : List UInt8)
  /-- It has been done. -/
  | accepted
  /-- It is refused. -/
  | stalled
deriving DecidableEq, Repr

/-- The state of the device on the bus. -/
structure UsbDevice where
  /-- The pad that is shown. -/
  profile : Profile
  /-- The host has configured the device. -/
  configured : Bool
  /-- The device may wake the host up. -/
  remoteWakeup : Bool
deriving DecidableEq, Repr

namespace UsbDevice

/-- The device after it was plugged in. -/
def pluggedIn (profile : Profile) : UsbDevice := ⟨profile, false, false⟩

/-- The most bytes that may follow a request. -/
def longestData : Nat := 64

/-- The name that an index stands for. -/
def string? (d : UsbDevice) (index : Nat) : Option String :=
  match index with
  | 1 => d.profile.identity.manufacturerName
  | 2 => d.profile.identity.productName
  | 3 => d.profile.identity.serialNumber
  | _ => none

/-- The descriptor of a kind. -/
def descriptor? (d : UsbDevice) (kind index : Nat) : Option (List UInt8) :=
  match kind with
  | 0x01 => some (Descriptor.device d.profile.identity)
  | 0x02 => some (Descriptor.configuration d.profile.interface)
  | 0x03 =>
    if index = 0 then some Descriptor.languages else (d.string? index).map Descriptor.string
  | 0x06 => some Descriptor.qualifier
  | 0x0F => some Descriptor.capabilities
  | _ => none

/-- The data that a standard request to the device asks for. -/
def deviceData? (d : UsbDevice) (r : ControlRequest) : Option (List UInt8) :=
  match r.request with
  | 0x00 => some [if d.remoteWakeup then 2 else 0, 0]
  | 0x06 => d.descriptor? (r.value / 256) (r.value % 256)
  | 0x08 => some [if d.configured then 1 else 0]
  | _ => none

/-- The data that a standard request to the interface asks for. -/
def interfaceData? (d : UsbDevice) (r : ControlRequest) : Option (List UInt8) :=
  match r.request with
  | 0x00 => some [0, 0]
  | 0x0A => some [0]
  | 0x06 =>
    match r.value / 256 with
    | 0x21 => some (Descriptor.hid d.profile.interface)
    | 0x22 => some d.profile.interface.reports
    | _ => none
  | _ => none

/-- The data that a request asks for. There is one interface, with the number 0, and the only
question of its class that it answers is which protocol is in use. -/
def data? (d : UsbDevice) (r : ControlRequest) : Option (List UInt8) :=
  match r.kind, r.recipient with
  | .standard, .device => d.deviceData? r
  | .standard, .interface => if r.index = 0 then d.interfaceData? r else none
  | .standard, .endpoint => if r.request = 0x00 then some [0, 0] else none
  | .hid, .interface => if r.index = 0 ∧ r.request = 0x03 then some [1] else none
  | _, _ => none

/-- The device after a standard request to it that gives no data. -/
def deviceOrder? (d : UsbDevice) (r : ControlRequest) : Option UsbDevice :=
  match r.request with
  | 0x01 => if r.value = 1 then some { d with remoteWakeup := false } else none
  | 0x03 => if r.value = 1 then some { d with remoteWakeup := true } else none
  | 0x05 => if 1 ≤ r.value ∧ r.value ≤ 127 then some { d with configured := false } else none
  | 0x09 =>
    if r.value = 1 then some { d with configured := true }
    else if r.value = 0 then some { d with configured := false }
    else none
  | _ => none

/-- An interface takes its first setting, any time between repeated reports, and the protocol of
reports. -/
def interfaceAccepts (r : ControlRequest) : Bool :=
  match r.kind, r.request with
  | .standard, 0x0B => r.index % 256 = 0 && r.value % 256 = 0
  | .hid, 0x0A => r.index = 0
  | .hid, 0x0B => r.index = 0 && r.value % 256 != 0
  | _, _ => false

/-- The device after a request that gives no data. -/
def order? (d : UsbDevice) (r : ControlRequest) : Option UsbDevice :=
  if longestData < r.length then none
  else
    match r.kind, r.recipient with
    | .standard, .device => d.deviceOrder? r
    | .standard, .endpoint =>
      if (r.request = 0x01 ∨ r.request = 0x03) ∧ r.value = 0 then some d else none
    | _, .interface => if interfaceAccepts r then some d else none
    | _, _ => none

/-- The answer to a request, and the device after it. -/
def respond (d : UsbDevice) (r : ControlRequest) : ControlReply × UsbDevice :=
  if r.toHost then
    match d.data? r with
    | some bytes => (.data (bytes.take r.length), d)
    | none => (.stalled, d)
  else
    match d.order? r with
    | some d => (.accepted, d)
    | none => (.stalled, d)

/-- The request has the device configured. -/
def configures (d : UsbDevice) (r : ControlRequest) : Bool :=
  !r.toHost && r.kind = .standard && r.recipient = .device && r.request = 0x09 && r.value = 1 &&
    (d.order? r).isSome

end UsbDevice

end PadScript
