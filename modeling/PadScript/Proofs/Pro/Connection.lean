import PadScript.Proofs.Pro.Answers

/-!
# The connection of the host

A session is called for a reply to a report of the host, and for the report of what is held. Whether
the host is connected is settled by the latest report that begins with one of two commands; nothing
else that the host sends, whole or cut short, has to do with it.

* `Session.handle_moves` : **what a report does to the session**, one case for each of its commands.
* `Session.connected_after` : so it is after any calls.
* `Session.reply_congr` : two sessions that began at one time give the same replies.
* `Session.follows_connection` : **the stream of reports follows the connection**, and the replies
  do not depend on it.
-/

namespace PadScript

namespace Session

/-- How a report begins that connects the host. -/
def connectCommand : List UInt8 := [0x80, 0x04]

/-- How a report begins that disconnects the host. -/
def disconnectCommand : List UInt8 := [0x80, 0x05]

/-- What a report can do to a session. -/
inductive Moves (s : Session) (report : List UInt8) : Session → Prop
  /-- The host is connected. -/
  | connect : connectCommand <+: report → Moves s report { s with connected := true }
  /-- The host is disconnected. -/
  | disconnect : disconnectCommand <+: report → Moves s report { s with connected := false }
  /-- Nothing. -/
  | keep : ¬connectCommand <+: report → ¬disconnectCommand <+: report → Moves s report s

theorem connectCommand_isPrefix {report : List UInt8} :
    connectCommand <+: report ↔ ∃ rest, report = 0x80 :: 0x04 :: rest :=
  exists_congr fun _ => eq_comm

theorem disconnectCommand_isPrefix {report : List UInt8} :
    disconnectCommand <+: report ↔ ∃ rest, report = 0x80 :: 0x05 :: rest :=
  exists_congr fun _ => eq_comm

/-- A USB command of another kind leaves the session as it is. -/
theorem moves_keep_usb {s : Session} {payload : List UInt8}
    (hconnect : ∀ rest, payload ≠ 0x04 :: rest) (hdisconnect : ∀ rest, payload ≠ 0x05 :: rest) :
    s.Moves (0x80 :: payload) s := by
  refine .keep (fun h => ?_) fun h => ?_
  · obtain ⟨rest, hrest⟩ := connectCommand_isPrefix.1 h
    exact hconnect rest (List.cons.inj hrest).2
  · obtain ⟨rest, hrest⟩ := disconnectCommand_isPrefix.1 h
    exact hdisconnect rest (List.cons.inj hrest).2

theorem usbCommand_moves (s : Session) (payload : List UInt8) :
    s.Moves (0x80 :: payload) (s.usbCommand payload).1 := by
  unfold usbCommand
  split
  next => exact moves_keep_usb (by simp) (by simp)
  next => exact moves_keep_usb (by simp) (by simp)
  next => exact moves_keep_usb (by simp) (by simp)
  next rest => exact .connect (connectCommand_isPrefix.2 ⟨rest, rfl⟩)
  next rest => exact .disconnect (disconnectCommand_isPrefix.2 ⟨rest, rfl⟩)
  next hconnect hdisconnect => exact moves_keep_usb hconnect hdisconnect

/-- **What a report does to the session.** -/
theorem handle_moves (s : Session) (report : List UInt8) (held : PadState) (now : Nat) :
    s.Moves report (s.handle report held now).1 := by
  unfold handle
  split
  next payload => exact s.usbCommand_moves payload
  next payload =>
    refine .keep (fun h => ?_) fun h => ?_
    · obtain ⟨rest, hrest⟩ := connectCommand_isPrefix.1 h
      cases hrest
    · obtain ⟨rest, hrest⟩ := disconnectCommand_isPrefix.1 h
      cases hrest
  next husb _ =>
    refine .keep (fun h => ?_) fun h => ?_
    · obtain ⟨rest, hrest⟩ := connectCommand_isPrefix.1 h
      exact husb _ hrest
    · obtain ⟨rest, hrest⟩ := disconnectCommand_isPrefix.1 h
      exact husb _ hrest

/-- No report begins with both commands. -/
theorem not_disconnectCommand_isPrefix {report : List UInt8} (h : connectCommand <+: report) :
    ¬disconnectCommand <+: report := by
  obtain ⟨rest, rfl⟩ := connectCommand_isPrefix.1 h
  intro h
  obtain ⟨rest', hrest⟩ := disconnectCommand_isPrefix.1 h
  cases hrest

theorem Moves.start_eq {s s' : Session} {report : List UInt8} (h : s.Moves report s') :
    s'.start = s.start := by
  cases h <;> rfl

theorem Moves.connected_iff {s s' : Session} {report : List UInt8} (h : s.Moves report s') :
    s'.connected = true ↔
      connectCommand <+: report ∨ s.connected = true ∧ ¬disconnectCommand <+: report := by
  cases h with
  | connect h => simp [h]
  | disconnect h =>
    have hnot : ¬connectCommand <+: report := fun hc => not_disconnectCommand_isPrefix hc h
    simp [h, hnot]
  | keep hconnect hdisconnect => simp [hconnect, hdisconnect]

/-! ### Any calls, one after another -/

/-- What a session is called for. -/
inductive Call where
  /-- A reply to a report of the host. -/
  | report (bytes : List UInt8) (held : PadState) (now : Nat)
  /-- The report of what is held. -/
  | periodic (held : PadState) (now : Nat)

/-- The host sends a report that begins like this. -/
def Call.Begins (front : List UInt8) : Call → Prop
  | report bytes _ _ => front <+: bytes
  | periodic _ _ => False

/-- The session after a call, and what it gives. -/
def serve (s : Session) : Call → Session × Option InputReport
  | .report bytes held now => s.handle bytes held now
  | .periodic held now => (s, s.periodic? held now)

/-- The session after some calls. -/
def after (s : Session) (calls : List Call) : Session :=
  calls.foldl (fun s call => (s.serve call).1) s

/-- A report connects the host, and none behind it disconnects it. -/
def LastConnects (calls : List Call) : Prop :=
  ∃ earlier call later, calls = earlier ++ call :: later ∧ call.Begins connectCommand ∧
    ∀ c ∈ later, ¬c.Begins disconnectCommand

variable {s s' : Session}

theorem start_serve (s : Session) (call : Call) : (s.serve call).1.start = s.start := by
  cases call with
  | report bytes held now => exact (s.handle_moves bytes held now).start_eq
  | periodic held now => rfl

theorem start_after (s : Session) (calls : List Call) : (s.after calls).start = s.start := by
  induction calls generalizing s with
  | nil => rfl
  | cons call rest ih => exact (ih _).trans (s.start_serve call)

theorem connected_serve (s : Session) (call : Call) :
    (s.serve call).1.connected = true ↔
      call.Begins connectCommand ∨ s.connected = true ∧ ¬call.Begins disconnectCommand := by
  cases call with
  | report bytes held now => exact (s.handle_moves bytes held now).connected_iff
  | periodic held now => simp [serve, Call.Begins]

theorem lastConnects_cons {call : Call} {rest : List Call} :
    LastConnects (call :: rest) ↔ LastConnects rest ∨
      call.Begins connectCommand ∧ ∀ c ∈ rest, ¬c.Begins disconnectCommand := by
  constructor
  · rintro ⟨earlier, c, later, hcalls, hconnect, hlater⟩
    cases earlier with
    | nil =>
      obtain ⟨rfl, rfl⟩ := List.cons.inj hcalls
      exact .inr ⟨hconnect, hlater⟩
    | cons first earlier =>
      obtain ⟨-, rfl⟩ := List.cons.inj hcalls
      exact .inl ⟨earlier, c, later, rfl, hconnect, hlater⟩
  · rintro (⟨earlier, c, later, rfl, hconnect, hlater⟩ | ⟨hconnect, hrest⟩)
    · exact ⟨call :: earlier, c, later, rfl, hconnect, hlater⟩
    · exact ⟨[], call, rest, rfl, hconnect, hrest⟩

/-- The host is connected after some calls if the last command among them connects it, or if it was
connected and there was no command that disconnects it. -/
theorem connected_after (s : Session) (calls : List Call) :
    (s.after calls).connected = true ↔
      LastConnects calls ∨ s.connected = true ∧ ∀ c ∈ calls, ¬c.Begins disconnectCommand := by
  induction calls generalizing s with
  | nil => simp [after, LastConnects]
  | cons call rest ih =>
    have hafter : s.after (call :: rest) = (s.serve call).1.after rest := rfl
    rw [hafter, ih, connected_serve, lastConnects_cons, List.forall_mem_cons, or_and_right,
      or_assoc, and_assoc]

/-! ### What the calls give -/

theorem periodic?_eq_some_iff {held : PadState} {now : Nat} {r : InputReport} :
    s.periodic? held now = some r ↔
      s.connected = true ∧ r = ⟨0x30, InputReport.padded (s.counter now :: held.proBlock)⟩ := by
  have hstamped : s.stamped InputReport.fullInputId held [] now =
      ⟨0x30, InputReport.padded (s.counter now :: held.proBlock)⟩ := by
    have hlength : (s.counter now :: held.proBlock).length ≤ InputReport.payloadLength :=
      show 12 ≤ 63 by decide
    rw [stamped, InputReport.ofData, List.append_nil, InputReport.fit_of_le hlength]
    rfl
  rw [periodic?, hstamped]
  cases s.connected <;> simp [eq_comm]

theorem counter_congr (h : s.start = s'.start) (now : Nat) : s.counter now = s'.counter now := by
  rw [counter, counter, h]

/-- **Two sessions that began at one time give the same replies**, connected or not. -/
theorem reply_congr (h : s.start = s'.start) (report : List UInt8) (held : PadState) (now : Nat) :
    (s.handle report held now).2 = (s'.handle report held now).2 := by
  have husb : ∀ payload, (s.usbCommand payload).2 = (s'.usbCommand payload).2 := by
    intro payload
    unfold usbCommand
    split <;> rfl
  have hsubcommand : ∀ payload,
      s.subcommand? payload held now = s'.subcommand? payload held now := by
    intro payload
    simp only [subcommand?, stamped, counter_congr h]
  unfold handle
  split
  next payload => exact husb payload
  next payload => exact hsubcommand payload
  next => rfl

/-- **The stream of reports follows the connection.** After any calls of a session that has begun,
the host is connected if and only if the last command among them connects it; then and only then
there is a report of what is held. A reply is the same after whatever calls. -/
theorem follows_connection (start : Nat) (calls : List Call) :
    (((begin start).after calls).connected = true ↔ LastConnects calls) ∧
      (∀ held now r, ((begin start).after calls).periodic? held now = some r ↔
        LastConnects calls ∧
          r = ⟨0x30, InputReport.padded ((begin start).counter now :: held.proBlock)⟩) ∧
      ∀ calls' report held now, (((begin start).after calls).handle report held now).2 =
        (((begin start).after calls').handle report held now).2 := by
  have hconnected : ((begin start).after calls).connected = true ↔ LastConnects calls := by
    rw [connected_after]
    exact or_iff_left fun h => Bool.noConfusion h.1
  have hstart := start_after (begin start)
  refine ⟨hconnected, fun held now r => ?_, fun calls' report held now => ?_⟩
  · rw [periodic?_eq_some_iff, hconnected, counter_congr (hstart calls)]
  · exact reply_congr ((hstart calls).trans (hstart calls').symm) report held now

end Session

end PadScript
