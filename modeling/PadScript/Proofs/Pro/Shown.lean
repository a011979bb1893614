import PadScript.Proofs.Joystick.Callers
import PadScript.Proofs.Pro.Trim

/-!
# What reports show while realtime mode is off

On the profile `proController` a send that is over has put its line into the slot, and every report
shows what is in the slot, however long ago it got there. While realtime mode is off nothing else
changes the slot, with one exception: a payload that ends realtime mode empties the slot, whether
the mode is on or not.

* `InputReport.block_stamped` : what a stamped report says is held.
* `Send.shows_step` : what a step of a send does to the slot.
* `Station.pad_handle` : what a payload does to the pad while realtime mode is off.
* `ProPad.faithful_step` : **the slot holds the line of the latest send, unless it was emptied.**
* `ProPad.shows_iff` : **a report shows the line of the latest send** if and only if no payload has
  ended realtime mode since that send, or the line holds nothing.
* `ProPad.not_shows_emptied` : a report that does not show it.
-/

namespace PadScript

/-! ### What a report says is held -/

theorem ProBlock.length_proBlock (s : PadState) : s.proBlock.length = 11 := rfl

namespace InputReport

/-- The part of a stamped report that says what is held. -/
def block (r : InputReport) : List UInt8 := (r.payload.drop 1).take 11

/-- The report says what is held. -/
def IsStamped (r : InputReport) : Prop := r.id = fullInputId ∨ r.id = subcommandReplyId

instance (r : InputReport) : Decidable r.IsStamped :=
  inferInstanceAs (Decidable (r.id = fullInputId ∨ r.id = subcommandReplyId))

theorem block_stamped (s : Session) (id : UInt8) (held : PadState) (tail : List UInt8)
    (now : Nat) : (s.stamped id held tail now).block = held.proBlock := by
  have hlength := ProBlock.length_proBlock held
  simp [block, Session.stamped, ofData, fit, payloadLength, List.take_take, List.drop_take, hlength]

end InputReport

namespace Session

variable {s : Session} {held : PadState} {now : Nat} {r : InputReport}

theorem block_periodic (h : s.periodic? held now = some r) : r.block = held.proBlock := by
  unfold periodic? at h
  split at h
  · obtain rfl := Option.some.inj h
    exact InputReport.block_stamped ..
  · cases h

/-- The answers to USB commands do not say what is held. -/
theorem not_isStamped_usbCommand {payload : List UInt8} (h : (s.usbCommand payload).2 = some r) :
    ¬r.IsStamped := by
  unfold usbCommand at h
  split at h
  · obtain rfl := Option.some.inj h
    decide
  · obtain rfl := Option.some.inj h
    decide
  · obtain rfl := Option.some.inj h
    decide
  · cases h
  · cases h
  · cases h

theorem block_handle {report : List UInt8} (h : (s.handle report held now).2 = some r)
    (hstamped : r.IsStamped) : r.block = held.proBlock := by
  unfold handle at h
  split at h
  · exact absurd hstamped (not_isStamped_usbCommand h)
  · unfold subcommand? at h
    split at h
    · cases h
    · obtain ⟨answer, -, rfl⟩ := Option.map_eq_some_iff.1 h
      exact InputReport.block_stamped ..
  · cases h

end Session

/-! ### The slot while realtime mode is off -/

namespace LiveSlot

/-- Realtime mode is off, and the line that shows is this one without its blanks. -/
structure Rests (line : Text) (s : LiveSlot) : Prop where
  /-- Realtime mode is off. -/
  off : s.active = false
  /-- The line has not decayed. -/
  fresh : s.decayed = false
  /-- The line is this one. -/
  line_eq : s.line = Text.trim line

theorem rests_fresh : LiveSlot.fresh.Rests [] := ⟨rfl, rfl, rfl⟩

theorem rests_set {s : LiveSlot} (h : s.active = false) (line : Text) (now : Nat) :
    (s.set line now).Rests line := ⟨h, rfl, rfl⟩

theorem Rests.look_eq {s : LiveSlot} {line : Text} (h : s.Rests line) (now idle : Nat) :
    s.look now idle = (Text.trim line, s) := by
  simp [look, decay, shown, h.off, h.fresh, h.line_eq]

end LiveSlot

namespace Pad

variable {p : Pad} {line : Text}

/-- A look at a slot that rests finds what its line holds, and changes nothing. -/
theorem liveState_eq (h : p.slot.Rests line) (now : Nat) :
    p.liveState now = (.ofLine line, p) := by
  rw [liveState, h.look_eq]
  simp only [PadState.ofLine_trim]

theorem stampPeriodic_eq (h : p.slot.Rests line) (now : Nat) :
    p.stampPeriodic now = (p.session.periodic? (.ofLine line) now, p) := by
  simp only [stampPeriodic, liveState_eq h]

theorem stampReply_eq (h : p.slot.Rests line) (report : List UInt8) (now : Nat) :
    p.stampReply report now = ((p.session.handle report (.ofLine line) now).2,
      { p with session := (p.session.handle report (.ofLine line) now).1 }) := by
  simp only [stampReply, liveState_eq h]

end Pad

/-! ### What a send and a payload do to the slot -/

namespace Send

/-- The send does not write. -/
def IsSilent (x : Send) : Prop := ∀ w, x.phase ≠ .writing w

/-- There is no send that writes. -/
theorem isSilent_of_none (x : Send) (h : none = some x) : x.IsSilent := by
  cases h

/-- A step of a send leaves the pad alone, but for a last step that shows its line. -/
def Shows (now : Nat) (x : Send) (p : Pad) : Turn Pad Send (Except RunError Nat) → Prop
  | .wait p' x' _ => p' = p ∧ x'.line = x.line ∧ x'.IsSilent
  | .go p' x' => p' = p ∧ x'.line = x.line ∧ x'.IsSilent
  | .done p' (.ok _) =>
    p' = { p with slot := p.slot.set x.line now, pacer := p.pacer.record now }
  | .done p' (.error _) => p' = p

theorem shows_proceed {x : Send} {p : Pad} (hprofile : p.profile = .proController) (now : Nat)
    (wait : Wait) : x.Shows now p (x.proceed now p wait) := by
  cases wait with
  | cancelled =>
    simp only [proceed, hprofile]
    rfl
  | sleeping deadline => exact ⟨rfl, rfl, by rintro w ⟨⟩⟩
  | «over» =>
    simp only [proceed, hprofile]
    rw [← hprofile]
    rfl

/-- **What a step of a send does to the slot.** -/
theorem shows_step {x : Send} {p : Pad} (hprofile : p.profile = .proController)
    (hsilent : x.IsSilent) (now : Nat) (isCancelled : Bool) :
    x.Shows now p (x.step now isCancelled p) := by
  unfold step
  split
  next hphase =>
    simp only [hprofile]
    exact shows_proceed hprofile now _
  next deadline hphase =>
    split
    · exact ⟨rfl, rfl, hsilent⟩
    · exact shows_proceed hprofile now _
  next w hphase => exact absurd hphase (hsilent w)

end Send

/-- The payload ends realtime mode. -/
def Command.endsRealtime (payload : Text) : Bool :=
  match Command.parse payload with
  | .ok .realtimeStop => true
  | _ => false

/-- While realtime mode is off and stays off, a payload changes the slot only if it ends realtime
mode. -/
theorem Station.pad_handle {s : Station} (setup : Setup) (payload : Text)
    (hprofile : s.pad.profile = .proController) (hoff : s.pad.slot.active = false)
    (hstays : (s.handle setup payload).2.pad.slot.active = false) :
    (s.handle setup payload).2.pad =
      if Command.endsRealtime payload then
        { s.pad with slot := s.pad.slot.stop.set [] s.now }
      else s.pad := by
  unfold handle Command.endsRealtime at *
  cases hparse : Command.parse payload with
  | error e => rfl
  | ok command =>
    rw [hparse] at hstays
    cases command with
    | start r => exact (request_pad setup r false s).2
    | restart r => exact (request_pad setup r true s).2
    | stop => rfl
    | realtimeStart => cases hstays
    | realtimeStop => simp [apply, Pad.stopRealtime, hprofile]
    | realtimeAction line => simp [apply, Pad.setRealtime, Pad.isRealtime, hoff]

/-! ### A pad and what it shows -/

/-- A report, and what was so when it was built. -/
structure Showing where
  /-- The report. -/
  report : InputReport
  /-- The line of the latest send that was over; empty if there was none. -/
  latest : Text
  /-- A payload has ended realtime mode since that send. -/
  emptied : Bool
deriving DecidableEq, Repr

/-- A `proController` pad with its station, the sends of the tasks that call it, and the reports
that were built. -/
structure ProPad where
  /-- The station. -/
  station : Station
  /-- The sends that are not over. -/
  sends : Nat → Option Send
  /-- The line of the latest send that is over; empty if there is none. -/
  latest : Text
  /-- A payload has ended realtime mode since that send. -/
  emptied : Bool
  /-- The reports that were built. -/
  built : List Showing

/-- What can come next. -/
inductive ProPad.Move where
  /-- A caller begins to send a line, not before a time. -/
  | call (i : Nat) (line : Text) (notBefore : Option Nat)
  /-- The send of a caller makes a step. It has been cancelled or not. -/
  | turn (i : Nat) (isCancelled : Bool)
  /-- A caller gives its send up. -/
  | drop (i : Nat)
  /-- It is time for a periodic report. -/
  | tick
  /-- The host sends a report. -/
  | receive (report : List UInt8)
  /-- Something happens to the station. -/
  | happen (happening : Happening)

namespace ProPad

/-- A report is built, or none. -/
def build (v : ProPad) (stamped : Option InputReport × Pad) : ProPad :=
  { v with
    station := { v.station with pad := stamped.2 }
    built := v.built ++ (stamped.1.map (⟨·, v.latest, v.emptied⟩)).toList }

/-- A send makes a step. -/
def turn (v : ProPad) (i : Nat) (isCancelled : Bool) (x : Send) : ProPad :=
  let turn := x.step v.station.now isCancelled v.station.pad
  let v := { v with
    station := { v.station with pad := turn.world }
    sends := Function.update v.sends i turn.state? }
  match turn with
  | .done _ (.ok _) => { v with latest := x.line, emptied := false }
  | _ => v

/-- A payload has come, or something else has happened. -/
def isEmptiedBy (v : ProPad) : Happening → Bool
  | .payload text => v.emptied || Command.endsRealtime text
  | _ => v.emptied

variable (setup : Setup)

/-- What is left after a move. -/
def step (v : ProPad) : Move → ProPad
  | .call i line notBefore =>
    match v.sends i with
    | none => { v with sends := Function.update v.sends i (some (.ofLine line notBefore)) }
    | some _ => v
  | .turn i isCancelled =>
    match v.sends i with
    | none => v
    | some x => v.turn i isCancelled x
  | .drop i => { v with sends := Function.update v.sends i none }
  | .tick => v.build (v.station.pad.stampPeriodic v.station.now)
  | .receive report => v.build (v.station.pad.stampReply report v.station.now)
  | .happen happening =>
    { v with
      station := v.station.undergo setup happening
      emptied := v.isEmptiedBy happening }

/-- What is left after some moves. -/
def play (v : ProPad) (moves : List Move) : ProPad := moves.foldl (step setup) v

/-- A pad that is switched on, and that nobody has called. -/
def begin (clock : Clock) (now : Nat) : ProPad :=
  ⟨setup.station clock now, fun _ => none, [], false, []⟩

/-- Realtime mode is off, and stays off during the moves. -/
def StaysOff (v : ProPad) (moves : List Move) : Prop :=
  ∀ k ≤ moves.length, (v.play setup (moves.take k)).station.pad.isRealtime = false

instance (v : ProPad) (moves : List Move) : Decidable (v.StaysOff setup moves) :=
  inferInstanceAs (Decidable (∀ k ≤ moves.length, _ = false))

end ProPad

/-- The line that a report was to show. -/
def Showing.line (b : Showing) : Text := if b.emptied then [] else b.latest

namespace ProPad

/-- The line that is to be shown. -/
def line (v : ProPad) : Text := if v.emptied then [] else v.latest

/-- What stays true of a pad while realtime mode is off. -/
structure Faithful (v : ProPad) : Prop where
  /-- The pad has a protocol of its own. -/
  profile : v.station.pad.profile = .proController
  /-- The slot holds the line of the latest send, unless it was emptied. -/
  rests : v.station.pad.slot.Rests v.line
  /-- Sends put their lines into the slot, and write nothing. -/
  silent : ∀ i x, v.sends i = some x → x.IsSilent
  /-- The reports so far show what they were to show. -/
  shown : ∀ b ∈ v.built, b.report.IsStamped → b.report.block = (PadState.ofLine b.line).proBlock

variable {setup : Setup} {v : ProPad}

/-- A step that builds nothing. -/
theorem Faithful.of_quiet {v' : ProPad} (h : v.Faithful)
    (hprofile : v'.station.pad.profile = v.station.pad.profile)
    (hrests : v'.station.pad.slot.Rests v'.line)
    (hsilent : ∀ i x, v'.sends i = some x → x.IsSilent) (hbuilt : v'.built = v.built) :
    v'.Faithful :=
  ⟨hprofile.trans h.profile, hrests, hsilent, by rw [hbuilt]; exact h.shown⟩

/-- The sends stay silent when one of them is replaced by a silent one. -/
theorem Faithful.silent_update (h : v.Faithful) {x? : Option Send}
    (hx : ∀ x, x? = some x → x.IsSilent) (i k : Nat) (y : Send)
    (hy : Function.update v.sends i x? k = some y) : y.IsSilent := by
  by_cases hki : k = i
  · subst hki
    rw [Function.update_self] at hy
    exact hx y hy
  · rw [Function.update_of_ne hki] at hy
    exact h.silent k y hy

/-- A send of a caller is replaced by a silent one, or by none. -/
theorem Faithful.replace (h : v.Faithful) (i : Nat) {x? : Option Send}
    (hx : ∀ x, x? = some x → x.IsSilent) :
    ({ v with sends := Function.update v.sends i x? } : ProPad).Faithful :=
  h.of_quiet rfl h.rests (h.silent_update hx i) rfl

/-- A send makes a step. -/
theorem Faithful.turn (h : v.Faithful) {i : Nat} {x : Send} (hx : v.sends i = some x)
    (isCancelled : Bool) : (v.turn i isCancelled x).Faithful := by
  have hshows := Send.shows_step h.profile (h.silent i x hx) v.station.now isCancelled
  unfold ProPad.turn
  cases hstep : x.step v.station.now isCancelled v.station.pad with
  | wait p x' again =>
    rw [hstep] at hshows
    obtain ⟨rfl, -, hsilent⟩ := hshows
    exact h.replace i fun y hy => Option.some.inj hy ▸ hsilent
  | go p x' =>
    rw [hstep] at hshows
    obtain ⟨rfl, -, hsilent⟩ := hshows
    exact h.replace i fun y hy => Option.some.inj hy ▸ hsilent
  | done p result =>
    rw [hstep] at hshows
    cases result with
    | ok t =>
      obtain rfl : p = _ := hshows
      exact h.of_quiet rfl (LiveSlot.rests_set h.rests.off x.line v.station.now)
        (h.silent_update Send.isSilent_of_none i) rfl
    | error e =>
      obtain rfl : p = _ := hshows
      exact h.replace i Send.isSilent_of_none

/-- A report is built that shows what is to be shown. -/
theorem Faithful.build (h : v.Faithful) {report? : Option InputReport} {p : Pad}
    (hprofile : p.profile = v.station.pad.profile) (hslot : p.slot = v.station.pad.slot)
    (hblock : ∀ r, report? = some r → r.IsStamped → r.block = (PadState.ofLine v.line).proBlock) :
    (v.build (report?, p)).Faithful := by
  refine ⟨hprofile.trans h.profile, hslot ▸ h.rests, h.silent, fun b hb => ?_⟩
  rcases List.mem_append.1 hb with hb | hb
  · exact h.shown b hb
  · obtain ⟨r, hr, rfl⟩ := Option.map_eq_some_iff.1 (Option.mem_toList.1 hb)
    exact hblock r hr

/-- It is time for a periodic report. -/
theorem Faithful.tick (h : v.Faithful) :
    (v.build (v.station.pad.stampPeriodic v.station.now)).Faithful := by
  rw [Pad.stampPeriodic_eq h.rests]
  exact h.build rfl rfl fun r hr _ => Session.block_periodic hr

/-- The host sends a report. -/
theorem Faithful.receive (h : v.Faithful) (report : List UInt8) :
    (v.build (v.station.pad.stampReply report v.station.now)).Faithful := by
  rw [Pad.stampReply_eq h.rests]
  exact h.build rfl rfl fun r hr hstamped => Session.block_handle hr hstamped

/-- Something happens to the station, and realtime mode is off then. -/
theorem Faithful.happen (h : v.Faithful) (happening : Happening)
    (hoff : (v.station.undergo setup happening).pad.slot.active = false) :
    (v.step setup (.happen happening)).Faithful := by
  cases happening with
  | payload text =>
    have hpad := Station.pad_handle setup text h.profile h.rests.off hoff
    cases hends : Command.endsRealtime text with
    | true =>
      rw [hends, if_pos rfl] at hpad
      refine h.of_quiet ?_ ?_ h.silent rfl
      · simp only [step, Station.undergo, hpad]
      · simp only [step, Station.undergo, hpad, line, isEmptiedBy, hends, Bool.or_true, if_true]
        exact LiveSlot.rests_set rfl [] v.station.now
    | false =>
      rw [hends, if_neg (by simp)] at hpad
      refine h.of_quiet ?_ ?_ h.silent rfl
      · simp only [step, Station.undergo, hpad]
      · simp only [step, Station.undergo, hpad, line, isEmptiedBy, hends, Bool.or_false]
        exact h.rests
  | time later => exact h.of_quiet rfl h.rests h.silent rfl
  | outcomes next => exact h.of_quiet rfl h.rests h.silent rfl

/-- **A move after which realtime mode is off keeps the pad faithful.** -/
theorem faithful_step (h : v.Faithful) (move : Move)
    (hoff : (v.step setup move).station.pad.isRealtime = false) :
    (v.step setup move).Faithful := by
  cases move with
  | call i line notBefore =>
    simp only [step]
    cases hi : v.sends i with
    | none =>
      refine h.replace i fun x hx => ?_
      obtain rfl := Option.some.inj hx
      rintro w ⟨⟩
    | some x => exact h
  | turn i isCancelled =>
    simp only [step]
    cases hi : v.sends i with
    | none => exact h
    | some x => exact h.turn hi isCancelled
  | drop i => exact h.replace i Send.isSilent_of_none
  | tick => exact h.tick
  | receive report => exact h.receive report
  | happen happening => exact h.happen happening hoff

theorem faithful_begin (hprofile : setup.config.profile = .proController) (clock : Clock)
    (now : Nat) : (begin setup clock now).Faithful := by
  refine ⟨hprofile, LiveSlot.rests_fresh, fun _ => Send.isSilent_of_none, ?_⟩
  intro b hb
  cases hb

theorem faithful_play (h : v.Faithful) {moves : List Move} (hoff : v.StaysOff setup moves) :
    (v.play setup moves).Faithful := by
  induction moves generalizing v with
  | nil => exact h
  | cons move rest ih =>
    have hfirst : (v.step setup move).station.pad.isRealtime = false :=
      hoff 1 (Nat.le_add_left ..)
    exact ih (faithful_step h move hfirst) fun k hk => hoff (k + 1) (Nat.succ_le_succ hk)

/-- **Without realtime mode a report shows the line of the latest send that was over if and only if
no payload has ended realtime mode since then, or the line shows as the empty one does.** If one has,
the report shows that nothing is held. -/
theorem shows_iff (hprofile : setup.config.profile = .proController) (clock : Clock) (now : Nat)
    {moves : List Move} (hoff : (begin setup clock now).StaysOff setup moves) {b : Showing}
    (hbuilt : b ∈ ((begin setup clock now).play setup moves).built)
    (hstamped : b.report.IsStamped) :
    (b.report.block = (PadState.ofLine b.latest).proBlock ↔
        b.emptied = false ∨ (PadState.ofLine b.latest).proBlock = PadState.neutral.proBlock) ∧
      (b.emptied = true → b.report.block = PadState.neutral.proBlock) := by
  have hshown := (faithful_play (faithful_begin hprofile clock now) hoff).shown b hbuilt hstamped
  rw [hshown, Showing.line]
  cases b.emptied with
  | false => simp
  | true =>
    have hempty : PadState.ofLine [] = PadState.neutral := by decide
    simp [hempty, eq_comm]

/-- A pad with a protocol of its own, without macros. -/
def plain : Setup where
  library := .empty
  config := { Config.standard with profile := .proController }

/-- The host connects, `A` is sent, and then realtime mode ends that never began. -/
def emptying : List Move :=
  [.receive [0x80, 0x04], .call 0 ['A'] none, .turn 0 false,
    .happen (.payload "\x7b\"realtime\":\"action_stop\"\x7d".toList), .tick]

/-- **A report does not show the line of the latest send**, although realtime mode was never on. -/
theorem not_shows_emptied :
    (begin plain .prompt 0).StaysOff plain emptying ∧
      ∃ b ∈ ((begin plain .prompt 0).play plain emptying).built,
        b.report.IsStamped ∧ b.latest = ['A'] ∧
          b.report.block ≠ (PadState.ofLine b.latest).proBlock := by
  decide +kernel

/-- The same report: what it shows is that nothing is held. -/
theorem shows_iff_emptied :
    plain.config.profile = .proController ∧ (begin plain .prompt 0).StaysOff plain emptying ∧
      ∃ b ∈ ((begin plain .prompt 0).play plain emptying).built, b.report.IsStamped ∧
        (b.report.block = (PadState.ofLine b.latest).proBlock ↔
          b.emptied = false ∨
            (PadState.ofLine b.latest).proBlock = PadState.neutral.proBlock) ∧
        (b.emptied = true → b.report.block = PadState.neutral.proBlock) := by
  have hoff : (begin plain .prompt 0).StaysOff plain emptying := by decide +kernel
  obtain ⟨b, hb, hstamped⟩ :
      ∃ b ∈ ((begin plain .prompt 0).play plain emptying).built, b.report.IsStamped := by
    decide +kernel
  exact ⟨rfl, hoff, b, hb, hstamped, shows_iff rfl .prompt 0 hoff hb hstamped⟩

end ProPad

end PadScript
