import PadScript.Proofs.Pro.Answers

/-!
# Reads of the flash memory

Three stores of fixed size lie between the flash memory and the host: what is found there, the data
of the answer, in which five bytes stand before it, and the payload, in which fourteen do. The data
have the least room, so that an answer carries at most 44 bytes of a blob, and nothing is cut off
behind them.

* `Session.drop_payload` : what stands behind the counter and the block of what is held.
* `Flash.Request.handle_report` : **a read at a known address is answered with the bytes that were
  asked for**, whenever that is.
* `Session.reads_exactly` : and so two reads of one address agree.
-/

namespace PadScript

namespace Flash

/-- The most bytes of a blob that an answer carries. -/
def mostCarried : Nat := 44

/-- A read of the flash memory, as the host asks for it. -/
structure Request where
  /-- A counter and the strength of two motors. -/
  front : List UInt8
  /-- They stand before the subcommand. -/
  length_front : front.length = Session.subcommandIndex
  /-- The low byte of the address. -/
  low : UInt8
  /-- The high byte of the address. -/
  high : UInt8
  /-- Two bytes of the address that do not matter. -/
  spare : UInt8 × UInt8
  /-- How many bytes are asked for. -/
  length : UInt8
  /-- What stands behind. -/
  rest : List UInt8

namespace Request

/-- The report of the host. -/
def report (q : Request) : List UInt8 :=
  0x01 :: (q.front ++ 0x10 :: q.low :: q.high :: q.spare.1 :: q.spare.2 :: q.length :: q.rest)

/-- How many bytes of the blob are answered. -/
def carried (q : Request) : Nat := min q.length.toNat mostCarried

/-- What the answer says of the blob: which read it belongs to, and the first bytes. -/
def found (q : Request) (blob : List UInt8) : List UInt8 :=
  [0x90, 0x10, q.low, q.high, 0x00, 0x00, q.length] ++ Flash.found blob q.carried

/-- The same address is read, and at least as much. -/
structure Extends (q' q : Request) : Prop where
  /-- The low bytes of the addresses are the same. -/
  low : q'.low = q.low
  /-- So are the high bytes. -/
  high : q'.high = q.high
  /-- No fewer bytes are asked for. -/
  length : q.length ≤ q'.length

theorem length_found (q : Request) (blob : List UInt8) :
    (q.found blob).length = 7 + q.carried := by
  rw [found, List.length_append, Flash.length_found]
  rfl

theorem Extends.carried_le {q q' : Request} (h : q'.Extends q) : q.carried ≤ q'.carried := by
  have hlength : q.length.toNat ≤ q'.length.toNat := UInt8.le_iff_toNat_le.1 h.length
  simp only [carried]
  omega

end Request

end Flash

namespace Session

/-- The counter and the block of what is held stand before the rest of an answer, and zeros fill it
up. -/
theorem drop_payload (s : Session) (id : UInt8) (held : PadState) {tail : List UInt8} (now : Nat)
    (h : tail.length ≤ 51) :
    (s.stamped id held tail now).payload.drop 12 = tail ++ .replicate (51 - tail.length) 0 := by
  have hfront : (s.counter now :: held.proBlock).length = 12 := rfl
  have hlength : (s.counter now :: held.proBlock ++ tail).length = 12 + tail.length := by
    rw [List.length_append, hfront]
  have hfits : (s.counter now :: held.proBlock ++ tail).length ≤ InputReport.payloadLength := by
    rw [hlength, InputReport.payloadLength]
    omega
  have hroom : InputReport.payloadLength - (12 + tail.length) = 51 - tail.length := by
    rw [InputReport.payloadLength]
    omega
  rw [stamped, InputReport.ofData, InputReport.fit_of_le hfits, InputReport.padded, hlength, hroom,
    List.append_assoc, ← hfront, List.drop_left]

end Session

namespace Flash.Request

variable {s : Session} {held : PadState} {now : Nat} {q q' : Request} {blob : List UInt8}

/-- **A read at a known address is answered** with what was found there, whatever the session, what
is held and the time are. -/
theorem handle_report (h : At q.low q.high blob) (s : Session) (held : PadState) (now : Nat) :
    s.handle q.report held now =
      (s, some (s.stamped InputReport.subcommandReplyId held (q.found blob) now)) := by
  have hread : Session.Data 0x10 (q.low :: q.high :: q.spare.1 :: q.spare.2 :: q.length :: q.rest)
      0x90 ([q.low, q.high, 0x00, 0x00, q.length] ++ Flash.found blob q.carried) := .flash h
  have hdata := Session.subcommandAnswer?_eq_some_iff.2 hread
  rw [report, Session.handle, Session.subcommand?, ← q.length_front, List.drop_left]
  simp only
  rw [hdata, Option.map_some]
  rfl

/-- What is found stands in the payload behind the category, the subcommand and what was asked
for. -/
theorem drop_payload (q : Request) (blob : List UInt8) (s : Session) (held : PadState) (now : Nat) :
    (s.stamped InputReport.subcommandReplyId held (q.found blob) now).payload.drop 12 =
      q.found blob ++ .replicate (mostCarried - q.carried) 0 := by
  have hcarried : q.carried ≤ mostCarried := Nat.min_le_right ..
  have hlength := q.length_found blob
  rw [mostCarried] at hcarried
  have hroom : 51 - (q.found blob).length = mostCarried - q.carried := by
    rw [hlength, mostCarried]
    omega
  rw [s.drop_payload _ held now (by omega), hroom]

/-- The bytes of the blob in an answer. -/
theorem take_payload {count : Nat} (hcount : count ≤ q.carried) (blob : List UInt8) (s : Session)
    (held : PadState) (now : Nat) :
    ((s.stamped InputReport.subcommandReplyId held (q.found blob) now).payload.drop 19).take count =
      Flash.found blob count := by
  have hsplit := congrArg (List.drop 7) (q.drop_payload blob s held now)
  have hle : count ≤ (Flash.found blob q.carried).length := by rwa [Flash.length_found]
  rw [List.drop_drop] at hsplit
  calc _ = (Flash.found blob q.carried ++
        List.replicate (mostCarried - q.carried) 0).take count := congrArg (List.take count) hsplit
    _ = Flash.found blob count := by
      rw [List.take_append_of_le_length hle, take_found, Nat.min_eq_left hcount]

end Flash.Request

namespace Session

variable {q : Flash.Request} {blob : List UInt8}

/-- **Reads of the flash memory are exact.** A read at the address of a blob is answered with 63
bytes. From offset 12 on they are the category, the subcommand, the address, two zeros, the length
that was asked for, so many bytes of the blob, but at most 44, with `0xFF` behind its end, and zeros
up to the end. A read of the same address and of at least as much, in any session, at any time and
whatever is held, has the same bytes of the blob. -/
theorem reads_exactly (h : Flash.At q.low q.high blob) (s : Session) (held : PadState) (now : Nat) :
    ∃ r, s.handle q.report held now = (s, some r) ∧ r.id = 0x21 ∧ r.payload.length = 63 ∧
      r.payload.drop 12 = [0x90, 0x10, q.low, q.high, 0x00, 0x00, q.length] ++
        Flash.found blob (min q.length.toNat 44) ++ .replicate (44 - min q.length.toNat 44) 0 ∧
      ∀ q' : Flash.Request, q'.Extends q → ∀ (s' : Session) (held' : PadState) (now' : Nat),
        ∃ r', s'.handle q'.report held' now' = (s', some r') ∧
          (r'.payload.drop 19).take (min q.length.toNat 44) =
            (r.payload.drop 19).take (min q.length.toNat 44) := by
  have hdrop := q.drop_payload blob s held now
  refine ⟨_, Flash.Request.handle_report h s held now, rfl, ?_, hdrop, ?_⟩
  · have hlength := congrArg List.length hdrop
    have hcarried : q.carried ≤ Flash.mostCarried := Nat.min_le_right ..
    rw [List.length_drop, List.length_append, q.length_found, List.length_replicate] at hlength
    rw [Flash.mostCarried] at hlength hcarried
    omega
  · intro q' hextends s' held' now'
    have h' : Flash.At q'.low q'.high blob := by rwa [hextends.low, hextends.high]
    refine ⟨_, Flash.Request.handle_report h' s' held' now', ?_⟩
    exact (Flash.Request.take_payload hextends.carried_le blob s' held' now').trans
      (Flash.Request.take_payload (Nat.le_refl _) blob s held now).symm

/-- A read of three bytes of the colours of the pad. -/
def shortRead : Flash.Request := ⟨.replicate 9 0x00, rfl, 0x50, 0x60, (0x00, 0x00), 3, []⟩

/-- A read of more bytes of them than an answer can carry, at an address with two more bytes. -/
def longRead : Flash.Request := ⟨.replicate 9 0x07, rfl, 0x50, 0x60, (0x01, 0x02), 0xFF, [0x00]⟩

/-- A button is held. -/
def pressed : PadState := { PadState.neutral with buttons := .a }

theorem reads_exactly_colours :
    Flash.At shortRead.low shortRead.high [0xBC, 0x11, 0x42, 0x75, 0xA9, 0x28, 0xFF, 0xFF, 0xFF,
      0xFF, 0xFF, 0xFF] ∧ longRead.Extends shortRead ∧
    ∃ r, (begin 0).handle shortRead.report .neutral 1000 = (begin 0, some r) ∧
      r.payload.drop 12 = [0x90, 0x10, 0x50, 0x60, 0x00, 0x00, 3, 0xBC, 0x11, 0x42] ++
        .replicate 41 0x00 ∧
      ∃ r', (begin 7).handle longRead.report pressed 900000 = (begin 7, some r') ∧
        (r'.payload.drop 19).take 3 = [0xBC, 0x11, 0x42] := by
  have hblob : Flash.At shortRead.low shortRead.high [0xBC, 0x11, 0x42, 0x75, 0xA9, 0x28, 0xFF,
      0xFF, 0xFF, 0xFF, 0xFF, 0xFF] := ⟨0x6050, by decide, by decide⟩
  have hextends : longRead.Extends shortRead := ⟨rfl, rfl, by decide⟩
  obtain ⟨r, hr, -, -, hdrop, hagree⟩ := reads_exactly hblob (begin 0) .neutral 1000
  obtain ⟨r', hr', hsame⟩ := hagree longRead hextends (begin 7) pressed 900000
  refine ⟨hblob, hextends, r, hr, hdrop, r', hr', hsame.trans ?_⟩
  have hsplit := congrArg (fun bytes => (bytes.drop 7).take 3) hdrop
  simp only [List.drop_drop] at hsplit
  exact hsplit

end Session

end PadScript
