import PadScript.Pad.Session

/-!
# What the host is answered

The reports of the host that are answered, and the answers, said once more and not by way of the
dispatch over the bytes: `Session.Asks` says which reports are answered, and `Session.Answers` how.

* `InputReport.fit_of_le` : nothing is cut off a payload of at most 63 bytes.
* `Flash.read?_eq_some_iff` : what is read from the flash memory at an address.
* `Session.subcommandAnswer?_eq_some_iff` : the category and the data for a subcommand. They fit
  into a payload behind the counter and the block of what is held (`Session.Data.length_le`).
* `Session.handle_eq_some_iff` : the answers to all reports.
* `Session.answered_iff_asks` : **a report is answered if and only if it asks for something, and
  then as `Answers` says, with 63 bytes.**
-/

namespace PadScript

/-! ### Payloads -/

namespace InputReport

/-- Bytes, and then zeros up to the length of a payload. -/
def padded (bytes : List UInt8) : List UInt8 :=
  bytes ++ .replicate (payloadLength - bytes.length) 0

theorem fit_of_le {bytes : List UInt8} (h : bytes.length ≤ payloadLength) :
    fit payloadLength bytes = padded bytes := by
  rw [fit, padded, List.take_append, List.take_of_length_le h, List.take_replicate,
    Nat.min_eq_left (Nat.sub_le ..)]

theorem length_padded {bytes : List UInt8} (h : bytes.length ≤ payloadLength) :
    (padded bytes).length = payloadLength := by
  rw [padded, List.length_append, List.length_replicate]
  omega

end InputReport

/-! ### The flash memory -/

namespace Flash

/-- So many bytes from the start of a blob, with `0xFF` behind its end. -/
def found (blob : List UInt8) (count : Nat) : List UInt8 :=
  (List.range count).map fun i => blob.getD i 0xFF

/-- The blob is at the address with this low byte and this high byte. -/
def At (low high : UInt8) (blob : List UInt8) : Prop :=
  ∃ address, (address, blob) ∈ table ∧ address.toNat = low.toNat + 256 * high.toNat

theorem length_found (blob : List UInt8) (count : Nat) : (found blob count).length = count := by
  rw [found, List.length_map, List.length_range]

theorem take_found (blob : List UInt8) (k count : Nat) :
    (found blob count).take k = found blob (min k count) := by
  rw [found, ← List.map_take, List.take_range, found]

theorem take_fill (blob : List UInt8) (count : Nat) :
    (blob ++ .replicate count 0xFF).take count = found blob count := by
  refine List.ext_getElem ?_ fun i hi hi' => ?_
  · simp [length_found]
  · have hcount : i < count := by rwa [length_found] at hi'
    rw [List.getElem_take]
    by_cases hblob : i < blob.length
    · simp [found, List.getElem_append_left hblob, hblob]
    · simp [found, List.getElem_append_right (Nat.le_of_not_lt hblob), hblob]

/-- No address stands twice in the table. -/
theorem lookup_eq_some_iff {address : UInt16} {blob : List UInt8} :
    table.lookup address = some blob ↔ (address, blob) ∈ table := by
  constructor
  · intro h
    obtain ⟨front, rest, htable, -⟩ := List.lookup_eq_some_iff.1 h
    rw [htable]
    exact List.mem_append_right _ List.mem_cons_self
  · have hall : ∀ entry ∈ table, table.lookup entry.1 = some entry.2 := by decide
    exact hall (address, blob)

/-- The number of an address of two bytes. -/
theorem toNat_address (low high : UInt8) :
    (low.toUInt16 ||| high.toUInt16 <<< 8).toNat = low.toNat + 256 * high.toNat := by
  have hlow := low.toNat_lt
  have hhigh := high.toNat_lt
  have height : (8 : UInt16).toNat % 16 = 8 := by decide
  rw [UInt16.toNat_or, UInt16.toNat_shiftLeft, UInt8.toNat_toUInt16, UInt8.toNat_toUInt16, height,
    Nat.mod_eq_of_lt (by rw [Nat.shiftLeft_eq]; omega), Nat.or_comm,
    ← Nat.shiftLeft_add_eq_or_of_lt hlow, Nat.shiftLeft_eq]
  omega

theorem read?_eq_some_iff {low high length : UInt8} {bytes : List UInt8} :
    read? (low.toUInt16 ||| high.toUInt16 <<< 8) length = some bytes ↔
      ∃ blob, At low high blob ∧ bytes = found blob (min length.toNat maxLength) := by
  rw [read?, Option.map_eq_some_iff]
  constructor
  · rintro ⟨blob, hblob, rfl⟩
    exact ⟨blob, ⟨_, lookup_eq_some_iff.1 hblob, toNat_address low high⟩, take_fill ..⟩
  · rintro ⟨blob, ⟨address, hmem, haddress⟩, rfl⟩
    obtain rfl : address = low.toUInt16 ||| high.toUInt16 <<< 8 :=
      UInt16.toNat.inj (haddress.trans (toNat_address low high).symm)
    exact ⟨blob, lookup_eq_some_iff.2 hmem, take_fill ..⟩

end Flash

/-! ### Subcommands -/

namespace Session

/-- The subcommands that are no more than acknowledged. -/
def acknowledged : List UInt8 := [0x03, 0x08, 0x22, 0x30, 0x33, 0x38, 0x40, 0x41, 0x48]

/-- The subcommands that are answered. -/
def supported : List UInt8 :=
  [0x01, 0x02, 0x03, 0x04, 0x08, 0x10, 0x21, 0x22, 0x30, 0x33, 0x38, 0x40, 0x41, 0x48]

/-- The arguments of a read of the flash memory: an address at which there is a blob, the low byte
first, two bytes that do not matter, and how much is to be read. More may follow. -/
def ReadsFlash (args : List UInt8) : Prop :=
  ∃ low high x y length rest blob,
    args = low :: high :: x :: y :: length :: rest ∧ Flash.At low high blob

/-- The category and the data of the answer to a subcommand. -/
inductive Data : (subcommand : UInt8) → (args : List UInt8) → UInt8 → List UInt8 → Prop
  /-- Pairing. -/
  | pairing {args : List UInt8} : Data 0x01 args 0x81 [0x03]
  /-- What kind of device this is. -/
  | device {args : List UInt8} :
      Data 0x02 args 0x82 ([0x04, 0x21, 0x03, 0x02] ++ macAddress ++ [0x01, 0x01])
  /-- How long the triggers have been held. -/
  | triggers {args : List UInt8} : Data 0x04 args 0x83 []
  /-- A read of the flash memory: what was asked for, and at most 44 bytes of what was found. -/
  | flash {low high x y length : UInt8} {rest blob : List UInt8} : Flash.At low high blob →
      Data 0x10 (low :: high :: x :: y :: length :: rest) 0x90
        ([low, high, 0x00, 0x00, length] ++ Flash.found blob (min length.toNat 44))
  /-- The set-up of the sensor. -/
  | sensor {args : List UInt8} :
      Data 0x21 args 0xA0 [0x01, 0x00, 0xFF, 0x00, 0x08, 0x00, 0x1B, 0x01]
  /-- Anything that is no more than acknowledged. -/
  | acknowledge {subcommand : UInt8} {args : List UInt8} : subcommand ∈ acknowledged →
      Data subcommand args 0x80 []

/-- Nothing of the data is lost: there is room for 49 bytes of them. -/
theorem Data.length_le {subcommand category : UInt8} {args data : List UInt8}
    (h : Data subcommand args category data) : data.length ≤ Flash.maxLength := by
  cases h with
  | pairing => decide
  | device => decide
  | triggers => decide
  | flash hblob =>
    rw [List.length_append, Flash.length_found]
    have hroom : [0, 0, 0, 0, 0].length + 44 = Flash.maxLength := rfl
    exact hroom ▸ Nat.add_le_add_left (Nat.min_le_right ..) _
  | sensor => decide
  | acknowledge _ => decide

theorem flashReply?_eq_some_iff {args data : List UInt8} :
    flashReply? args = some data ↔ ∃ low high x y length rest blob,
      args = low :: high :: x :: y :: length :: rest ∧ Flash.At low high blob ∧
        data = [low, high, 0x00, 0x00, length] ++ Flash.found blob (min length.toNat 44) := by
  have htake : ∀ (low high length : UInt8) (blob : List UInt8),
      ([low, high, 0x00, 0x00, length] ++
        Flash.found blob (min length.toNat Flash.maxLength)).take Flash.maxLength =
      [low, high, 0x00, 0x00, length] ++ Flash.found blob (min length.toNat 44) := by
    intro low high length blob
    have hcut : min 44 (min length.toNat Flash.maxLength) = min length.toNat 44 := by
      simp only [Flash.maxLength]
      omega
    calc _ = [low, high, 0x00, 0x00, length] ++
          (Flash.found blob (min length.toNat Flash.maxLength)).take 44 := rfl
      _ = _ := by rw [Flash.take_found, hcut]
  constructor
  · intro h
    unfold flashReply? at h
    split at h
    next low high x y length rest =>
      obtain ⟨bytes, hread, rfl⟩ := Option.map_eq_some_iff.1 h
      obtain ⟨blob, hblob, rfl⟩ := Flash.read?_eq_some_iff.1 hread
      exact ⟨low, high, x, y, length, rest, blob, rfl, hblob, htake ..⟩
    next => cases h
  · rintro ⟨low, high, x, y, length, rest, blob, rfl, hblob, rfl⟩
    rw [flashReply?, Flash.read?_eq_some_iff.2 ⟨blob, hblob, rfl⟩, Option.map_some, htake]

theorem subcommandAnswer?_eq_some_iff {subcommand category : UInt8} {args data : List UInt8} :
    subcommandAnswer? subcommand args = some (category, data) ↔
      Data subcommand args category data := by
  constructor
  · intro h
    unfold subcommandAnswer? at h
    split at h
    next hpairing =>
      obtain ⟨rfl, rfl⟩ := Prod.mk.inj (Option.some.inj h)
      exact hpairing ▸ .pairing
    split at h
    next hdevice =>
      obtain ⟨rfl, rfl⟩ := Prod.mk.inj (Option.some.inj h)
      exact hdevice ▸ .device
    split at h
    next htriggers =>
      obtain ⟨rfl, rfl⟩ := Prod.mk.inj (Option.some.inj h)
      exact htriggers ▸ .triggers
    split at h
    next hflash =>
      obtain ⟨bytes, hreply, hpair⟩ := Option.map_eq_some_iff.1 h
      obtain ⟨rfl, rfl⟩ := Prod.mk.inj hpair
      obtain ⟨low, high, x, y, length, rest, blob, rfl, hblob, rfl⟩ :=
        flashReply?_eq_some_iff.1 hreply
      exact hflash ▸ .flash hblob
    split at h
    next hsensor =>
      obtain ⟨rfl, rfl⟩ := Prod.mk.inj (Option.some.inj h)
      exact hsensor ▸ .sensor
    split at h
    next hmem =>
      obtain ⟨rfl, rfl⟩ := Prod.mk.inj (Option.some.inj h)
      exact .acknowledge hmem
    next => cases h
  · intro h
    cases h with
    | pairing => rfl
    | device => rfl
    | triggers => rfl
    | @flash low high x y length rest blob hblob =>
      have hreply := flashReply?_eq_some_iff.2
        ⟨low, high, x, y, length, rest, blob, rfl, hblob, rfl⟩
      exact congrArg (Option.map (Prod.mk 0x90)) hreply
    | sensor => rfl
    | acknowledge hmem =>
      simp only [acknowledged, List.mem_cons, List.not_mem_nil, or_false] at hmem
      rcases hmem with rfl | rfl | rfl | rfl | rfl | rfl | rfl | rfl | rfl <;> rfl

/-! ### All reports -/

/-- How often the counter has counted at a time. -/
def ticks (s : Session) (now : Nat) : Nat := (now - s.start) * 360 / 1000000

/-- A report of the host that is answered. -/
inductive Asks : (report : List UInt8) → Prop
  /-- A USB command that is answered. -/
  | usb {command : UInt8} {rest : List UInt8} : command ∈ ([0x01, 0x02, 0x03] : List UInt8) →
      Asks (0x80 :: command :: rest)
  /-- A subcommand that is supported, behind nine bytes. A read of the flash memory has to be
  complete. -/
  | subcommand {front args : List UInt8} {subcommand : UInt8} : front.length = 9 →
      subcommand ∈ supported → (subcommand = 0x10 → ReadsFlash args) →
      Asks (0x01 :: (front ++ subcommand :: args))

/-- The answer to a report of the host, at a time at which something is held. -/
inductive Answers (s : Session) (held : PadState) (now : Nat) :
    (report : List UInt8) → InputReport → Prop
  /-- The state of the device, with its address. -/
  | status {rest : List UInt8} : Answers s held now (0x80 :: 0x01 :: rest)
      ⟨0x81, InputReport.padded ([0x01, 0x00, 0x03] ++ macAddress)⟩
  /-- The command comes back. -/
  | echo {command : UInt8} {rest : List UInt8} : command = 0x02 ∨ command = 0x03 →
      Answers s held now (0x80 :: command :: rest) ⟨0x81, InputReport.padded [command]⟩
  /-- The counter, what is held, the category, the subcommand and the data. -/
  | subcommand {front args data : List UInt8} {subcommand category : UInt8} : front.length = 9 →
      Data subcommand args category data →
      Answers s held now (0x01 :: (front ++ subcommand :: args))
        ⟨0x21, InputReport.padded
          ([.ofNat (s.ticks now % 256)] ++ held.proBlock ++ [category, subcommand] ++ data)⟩

variable {s : Session} {held : PadState} {now : Nat} {report : List UInt8} {r : InputReport}

/-- The counter is the low byte of the ticks, as long as their product stays below 64 bits. -/
theorem counter_eq (h : (now - s.start) * 360 < UInt64.size) :
    s.counter now = .ofNat (s.ticks now % 256) := by
  rw [counter, counterRate, Nat.mod_eq_of_lt h]
  exact UInt8.ofNat_mod_size.symm

theorem length_front_le {category subcommand : UInt8} {args data : List UInt8}
    (h : Data subcommand args category data) (counter : UInt8) (held : PadState) :
    ([counter] ++ held.proBlock ++ [category, subcommand] ++ data).length ≤
      InputReport.payloadLength := by
  have hdata := h.length_le
  have hblock : held.proBlock.length = 11 := rfl
  simp only [List.length_append, List.length_cons, List.length_nil, hblock]
  simp only [Flash.maxLength] at hdata
  simp only [InputReport.payloadLength]
  omega

theorem Answers.length_payload (h : s.Answers held now report r) :
    r.payload.length = InputReport.payloadLength := by
  cases h with
  | status => exact InputReport.length_padded (by decide)
  | echo _ => exact InputReport.length_padded (by simp [InputReport.payloadLength])
  | subcommand _ hdata => exact InputReport.length_padded (length_front_le hdata ..)

theorem stamped_eq (h : (now - s.start) * 360 < UInt64.size)
    {category subcommand : UInt8} {args data : List UInt8}
    (hdata : Data subcommand args category data) :
    s.stamped InputReport.subcommandReplyId held (category :: subcommand :: data) now =
      ⟨0x21, InputReport.padded
        ([.ofNat (s.ticks now % 256)] ++ held.proBlock ++ [category, subcommand] ++ data)⟩ := by
  rw [stamped, counter_eq h, InputReport.ofData, ← InputReport.fit_of_le (length_front_le hdata ..)]
  simp [InputReport.subcommandReplyId]

theorem usbCommand_eq_some_iff {payload : List UInt8} :
    (s.usbCommand payload).2 = some r ↔ s.Answers held now (0x80 :: payload) r := by
  constructor
  · intro h
    unfold usbCommand at h
    split at h
    · obtain rfl := Option.some.inj h
      exact .status
    · obtain rfl := Option.some.inj h
      exact .echo (.inl rfl)
    · obtain rfl := Option.some.inj h
      exact .echo (.inr rfl)
    · cases h
    · cases h
    · cases h
  · intro h
    cases h with
    | status => rfl
    | echo hcommand =>
      rcases hcommand with rfl | rfl
      · rfl
      · rfl

theorem subcommand?_eq_some_iff (h : (now - s.start) * 360 < UInt64.size)
    {payload : List UInt8} :
    s.subcommand? payload held now = some r ↔ s.Answers held now (0x01 :: payload) r := by
  constructor
  · intro hanswer
    unfold subcommand? at hanswer
    split at hanswer
    · cases hanswer
    next subcommand args hdrop =>
      obtain ⟨⟨category, data⟩, hdata, rfl⟩ := Option.map_eq_some_iff.1 hanswer
      rw [subcommandAnswer?_eq_some_iff] at hdata
      have hfront : (payload.take subcommandIndex).length = 9 := by
        have hlong : payload.length - subcommandIndex = (subcommand :: args).length := by
          rw [← List.length_drop, hdrop]
        rw [List.length_take]
        simp only [List.length_cons, subcommandIndex] at hlong ⊢
        omega
      have hreply : s.Answers held now
          (0x01 :: (payload.take subcommandIndex ++ subcommand :: args))
          (s.stamped InputReport.subcommandReplyId held (category :: subcommand :: data) now) :=
        stamped_eq h hdata ▸ .subcommand hfront hdata
      rwa [← hdrop, List.take_append_drop] at hreply
  · intro hanswer
    cases hanswer with
    | subcommand hfront hdata =>
      rw [subcommand?, ← show _ = subcommandIndex from hfront, List.drop_left]
      simp only
      rw [subcommandAnswer?_eq_some_iff.2 hdata, Option.map_some, stamped_eq h hdata]

/-- **The answers to all reports.** -/
theorem handle_eq_some_iff (h : (now - s.start) * 360 < UInt64.size) :
    (s.handle report held now).2 = some r ↔ s.Answers held now report r := by
  unfold handle
  split
  next => exact usbCommand_eq_some_iff
  next => exact subcommand?_eq_some_iff h
  next husb hsub =>
    constructor
    · intro hanswer
      cases hanswer
    · intro hanswer
      cases hanswer with
      | status => exact absurd rfl (husb _)
      | echo _ => exact absurd rfl (husb _)
      | subcommand _ _ => exact absurd rfl (hsub _)

/-- Five of the supported subcommands get more than an acknowledgement. -/
theorem mem_supported_iff {subcommand : UInt8} :
    subcommand ∈ supported ↔ subcommand ∈ acknowledged ∨ subcommand = 0x01 ∨ subcommand = 0x02 ∨
      subcommand = 0x04 ∨ subcommand = 0x10 ∨ subcommand = 0x21 := by
  simp only [supported, acknowledged, List.mem_cons, List.not_mem_nil, or_false]
  grind

/-- A subcommand has an answer if it is supported and, if it reads the flash memory, complete. -/
theorem exists_data_iff {subcommand : UInt8} {args : List UInt8} :
    (∃ category data, Data subcommand args category data) ↔
      subcommand ∈ supported ∧ (subcommand = 0x10 → ReadsFlash args) := by
  constructor
  · rintro ⟨category, data, h⟩
    cases h with
    | pairing => exact ⟨by decide, fun h => absurd h (by decide)⟩
    | device => exact ⟨by decide, fun h => absurd h (by decide)⟩
    | triggers => exact ⟨by decide, fun h => absurd h (by decide)⟩
    | flash hblob => exact ⟨by decide, fun _ => ⟨_, _, _, _, _, _, _, rfl, hblob⟩⟩
    | sensor => exact ⟨by decide, fun h => absurd h (by decide)⟩
    | acknowledge hmem =>
      have hread : (0x10 : UInt8) ∉ acknowledged := by decide
      exact ⟨mem_supported_iff.2 (.inl hmem), fun h => absurd (h ▸ hmem) hread⟩
  · rintro ⟨hsupported, hreads⟩
    rcases mem_supported_iff.1 hsupported with hmem | rfl | rfl | rfl | rfl | rfl
    · exact ⟨_, _, .acknowledge hmem⟩
    · exact ⟨_, _, .pairing⟩
    · exact ⟨_, _, .device⟩
    · exact ⟨_, _, .triggers⟩
    · obtain ⟨low, high, x, y, length, rest, blob, rfl, hblob⟩ := hreads rfl
      exact ⟨_, _, .flash hblob⟩
    · exact ⟨_, _, .sensor⟩

theorem exists_answers_iff : (∃ r, s.Answers held now report r) ↔ Asks report := by
  constructor
  · rintro ⟨r, h⟩
    cases h with
    | status => exact .usb (by decide)
    | echo hcommand => exact .usb (by rcases hcommand with rfl | rfl <;> decide)
    | subcommand hfront hdata =>
      obtain ⟨hsupported, hreads⟩ := exists_data_iff.1 ⟨_, _, hdata⟩
      exact .subcommand hfront hsupported hreads
  · intro h
    cases h with
    | @usb command _ hmem =>
      have hcases : command = 0x01 ∨ command = 0x02 ∨ command = 0x03 := by simpa using hmem
      rcases hcases with rfl | hcommand
      · exact ⟨_, .status⟩
      · exact ⟨_, .echo hcommand⟩
    | subcommand hfront hsupported hreads =>
      obtain ⟨category, data, hdata⟩ := exists_data_iff.2 ⟨hsupported, hreads⟩
      exact ⟨_, .subcommand hfront hdata⟩

/-- **A report of the host is answered if and only if it asks for something, and the answer is the
one that `Answers` says.** It fills a payload and no more. -/
theorem answered_iff_asks (s : Session) (report : List UInt8) (held : PadState) (now : Nat)
    (h : (now - s.start) * 360 < UInt64.size) :
    ((∃ r, (s.handle report held now).2 = some r) ↔ Asks report) ∧
      (∀ r, (s.handle report held now).2 = some r ↔ s.Answers held now report r) ∧
      ∀ r, s.Answers held now report r → r.payload.length = 63 := by
  refine ⟨?_, fun r => handle_eq_some_iff h, fun r => Answers.length_payload⟩
  simp only [handle_eq_some_iff h]
  exact exists_answers_iff

/-- A read of the colours of the pad that asks for more than an answer can carry. -/
def colourRead : List UInt8 := 0x01 :: (.replicate 9 0x00 ++ [0x10, 0x50, 0x60, 0x00, 0x00, 0xFF])

/-- This read is answered, at a time at which the counter has gone round. -/
theorem answered_iff_asks_colours :
    (1000000 - (begin 250000).start) * 360 < UInt64.size ∧ Asks colourRead ∧
      ∃ r, ((begin 250000).handle colourRead .neutral 1000000).2 = some r ∧
        (begin 250000).Answers .neutral 1000000 colourRead r ∧ r.payload.length = 63 ∧
        r.payload.head? = some 14 := by
  have hbound : (1000000 - (begin 250000).start) * 360 < UInt64.size := by decide
  obtain ⟨hasks, hanswers, hlength⟩ :=
    answered_iff_asks (begin 250000) colourRead .neutral 1000000 hbound
  have hmem : Flash.At 0x50 0x60 [0xBC, 0x11, 0x42, 0x75, 0xA9, 0x28, 0xFF, 0xFF, 0xFF, 0xFF, 0xFF,
      0xFF] := ⟨0x6050, by decide, by decide⟩
  have hfront : (List.replicate 9 (0x00 : UInt8)).length = 9 := rfl
  have hread : Asks colourRead :=
    .subcommand hfront (by decide) fun _ => ⟨_, _, _, _, _, _, _, rfl, hmem⟩
  obtain ⟨r, hr⟩ := hasks.2 hread
  refine ⟨hbound, hread, r, hr, (hanswers r).1 hr, hlength r ((hanswers r).1 hr), ?_⟩
  have hhead : ((begin 250000).handle colourRead .neutral 1000000).2.bind (·.payload.head?) =
      some 14 := by decide
  rwa [hr] at hhead

end Session

end PadScript
