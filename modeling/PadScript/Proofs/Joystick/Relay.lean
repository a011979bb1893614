import PadScript.Proofs.Joystick.Callers
import PadScript.Proofs.Slot.Changes

/-!
# A session of realtime mode and its host

In realtime mode a session forwards the live line to the host: it sends a line when it has changed.
A `Relay` is such a session with what it has forwarded. A change is forgotten when the session has
looked at it, and whether the send succeeds plays no part in this.

* `Relay.Kept` : what a session and its live line know about each other, phase by phase.
* `Relay.kept_turn`, `Relay.kept_happen` : **whatever happens, it stays so.**
* `Relay.isInStep_iff` : **after a look the host shows what the live line says** if and only if the
  latest send was taken, or what was taken before shows the same.
* `Relay.not_isInStep_refused` : after a failure the host keeps a wrong report, although the sink is
  well again and the client repeats the line.
-/

namespace PadScript

/-! ### What the live line shows -/

namespace LiveSlot

variable {now idle : Nat} {line : Text} {s s' : LiveSlot}

/-- In realtime mode a change is still to be told. -/
def HasNews (s : LiveSlot) : Prop := s.active = true → s.dirty = true

theorem Presents.of_served (h : s.Presents line) (hserved : s.Served now s') :
    s'.Presents line := by
  cases hserved with
  | keep => exact h
  | start => exact .inl rfl
  | stop => exact h
  | clear => exact Presents.set (s := s.stop) h [] now
  | set next _ => exact h.set next now

theorem HasNews.of_served (h : s.HasNews) (hserved : s.Served now s') : s'.HasNews := by
  cases hserved with
  | keep => exact h
  | start => exact fun _ => rfl
  | stop => exact fun hactive => nomatch hactive
  | clear => exact fun hactive => nomatch hactive
  | set next hactive =>
    intro _
    simp [LiveSlot.set, h hactive]

/-- A line that decays is a change. -/
theorem decay_eq_of_dirty (h : (s.decay now idle).dirty = false) : s.decay now idle = s := by
  unfold decay at h ⊢
  split
  next hstale => simp [hstale] at h
  next => rfl

end LiveSlot

/-! ### What a send tells the host -/

/-- The bytes that show a line depend on the kind of pad only. -/
theorem Pad.encode_congr {p p' : Pad} (h : p'.profile = p.profile) : p'.encode = p.encode := by
  funext line
  unfold encode
  rw [h]

namespace Send

/-- The report that is written shows the line. -/
def Means (x : Send) (p : Pad) : Prop := ∀ w, x.phase = .writing w → w.report = p.encode x.line

theorem Means.congr {x : Send} {p p' : Pad} (h : x.Means p) (hprofile : p'.profile = p.profile) :
    x.Means p' := by
  rw [Means, Pad.encode_congr hprofile]
  exact h

theorem means_of_asking {x : Send} {p : Pad} (h : x.phase = .asking) : x.Means p :=
  fun w hw => by simp [h] at hw

/-- A step of a send leaves the live line alone, and adds a report at most at its end: the one that
shows its line. -/
def Tells (now : Nat) (x : Send) (p : Pad) : Turn Pad Send (Except RunError Nat) → Prop
  | .wait p' x' _ => p'.slot = p.slot ∧ p'.sink.sent = p.sink.sent ∧ x'.line = x.line ∧ x'.Means p'
  | .go p' x' => p'.slot = p.slot ∧ p'.sink.sent = p.sink.sent ∧ x'.line = x.line ∧ x'.Means p'
  | .done p' (.ok _) => p'.slot = p.slot ∧ p'.sink.sent = p.sink.sent ++ [(now, p.encode x.line)]
  | .done p' (.error _) => p'.slot = p.slot ∧ p'.sink.sent = p.sink.sent

theorem tells_step {p : Pad} {x : Send} (hprofile : p.profile = .horipadS) (h : x.Means p)
    (now : Nat) (isCancelled : Bool) : x.Tells now p (x.step now isCancelled p) := by
  have hmoves := moves_step hprofile now isCancelled x
  generalize x.step now isCancelled p = turn at hmoves ⊢
  cases hmoves with
  | queue hphase hheld => exact ⟨rfl, rfl, rfl, h⟩
  | refuse hphase hfree hcancelled => exact ⟨rfl, rfl⟩
  | take hphase hfree hdeadline hlt =>
    exact ⟨rfl, rfl, rfl, fun w hw => nomatch hw⟩
  | takeNow hphase hfree hdue =>
    refine ⟨rfl, rfl, rfl, fun w hw => ?_⟩
    obtain rfl := SendPhase.writing.inj hw
    rfl
  | sleep hphase hlt => exact ⟨rfl, rfl, rfl, h⟩
  | giveUp hphase hcancelled => exact ⟨rfl, rfl⟩
  | wake hphase hle =>
    refine ⟨rfl, rfl, rfl, fun w hw => ?_⟩
    obtain rfl := SendPhase.writing.inj hw
    rfl
  | suspend hphase hsent => exact ⟨rfl, hsent, rfl, h⟩
  | retry hphase hreport hsent =>
    refine ⟨rfl, hsent, rfl, fun w' hw' => ?_⟩
    obtain rfl := SendPhase.writing.inj hw'
    exact hreport.trans (h _ hphase)
  | accept hphase hsent => exact ⟨rfl, by rw [← h _ hphase]; exact hsent⟩
  | fail hphase hsent => exact ⟨rfl, hsent⟩

/-- Whether the report of a send is taken, when a step is its last one. -/
def taken? (now : Nat) (isCancelled : Bool) (x : Send) (p : Pad) : Option Bool :=
  match x.step now isCancelled p with
  | .done _ (.ok _) => some true
  | .done _ (.error _) => some false
  | _ => none

end Send

/-! ### A session and what it has sent -/

/-- The task that serves realtime mode, forwarding the live line to the host, on a station where no
macro is played. -/
structure Relay where
  /-- The station. -/
  station : Station
  /-- The session. -/
  session : Realtime
  /-- The line that was shown at the latest look. -/
  seen : Text
  /-- The lines of its sends that are over, and whether they were taken. -/
  sends : List (Text × Bool)

/-- What can come next. -/
inductive Relay.Move where
  /-- The session makes a step. -/
  | turn
  /-- Something happens to the station. -/
  | happen (happening : Happening)

namespace Relay

/-- The live line. -/
def slot (v : Relay) : LiveSlot := v.station.pad.slot

/-- The line of a look, if it is time for one. -/
def look (v : Relay) : Text :=
  match v.session with
  | .looking _ => (v.slot.decay v.station.now v.station.pad.timing.realtimeIdle).shown
  | _ => v.seen

/-- The send that a step brings to its end. -/
def ended (v : Relay) : Option (Text × Bool) :=
  v.session.send?.bind fun x =>
    (x.taken? v.station.now false v.station.pad).map fun taken => (x.line, taken)

/-- The session makes a step. -/
def turn (v : Relay) : Relay where
  station := (v.session.serve v.station).world
  session := (v.session.serve v.station).state?.getD .waiting
  seen := v.look
  sends := v.sends ++ v.ended.toList

/-- What is left after a move. -/
def step (setup : Setup) (v : Relay) : Move → Relay
  | .turn => v.turn
  | .happen happening => { v with station := v.station.undergo setup happening }

/-- What is left after some moves. -/
def play (setup : Setup) (v : Relay) (moves : List Move) : Relay := moves.foldl (step setup) v

/-- A session on a pad that is switched on. -/
def begin (setup : Setup) (clock : Clock) (now : Nat) : Relay :=
  ⟨setup.station clock now, .waiting, [], []⟩

/-- The report that the sink took last. -/
def lastReport? (v : Relay) : Option (List UInt8) := v.station.pad.sink.sent.getLast?.map Prod.snd

/-- The line that was taken last. -/
def lastTaken? (sends : List (Text × Bool)) : Option Text :=
  (sends.filter Prod.snd).getLast?.map Prod.fst

/-- The host shows the line of the latest look. -/
def IsInStep (v : Relay) : Prop := v.lastReport? = some (v.station.pad.encode v.seen)

instance (v : Relay) : Decidable v.IsInStep :=
  inferInstanceAs (Decidable (v.lastReport? = some (v.station.pad.encode v.seen)))

@[simp] theorem lastTaken?_taken (sends : List (Text × Bool)) (line : Text) :
    lastTaken? (sends ++ [(line, true)]) = some line := by
  simp [lastTaken?]

@[simp] theorem lastTaken?_refused (sends : List (Text × Bool)) (line : Text) :
    lastTaken? (sends ++ [(line, false)]) = lastTaken? sends := by
  simp [lastTaken?]

/-- The latest send was the one of this line. -/
def EndsWith (line : Text) (v : Relay) : Prop := ∃ past taken, v.sends = past ++ [(line, taken)]

/-- What the session and the live line know about each other. -/
def InPhase (v : Relay) : Prop :=
  match v.session with
  | .waiting => v.slot.HasNews
  -- the first look of a session has news, a later one follows a send
  | .looking _ => v.slot.HasNews ∨ ∃ line, v.EndsWith line ∧ v.slot.Presents line
  | .sending _ x => x.line = v.seen ∧ v.slot.Presents v.seen ∧ x.Means v.station.pad
  | .sleeping _ => v.EndsWith v.seen ∧ v.slot.Presents v.seen
  | .releasing x => v.slot.HasNews ∧ x.Means v.station.pad

/-- What stays true of a session. -/
structure Kept (v : Relay) : Prop where
  /-- The pad is a joystick. -/
  profile : v.station.pad.profile = .horipadS
  /-- The last report shows the line that was taken last. -/
  last : v.lastReport? = (lastTaken? v.sends).map v.station.pad.encode
  /-- What the session and the live line know about each other. -/
  phase : v.InPhase

variable {setup : Setup} {v : Relay}

/-! ### One step of the session -/

section Send

variable {x : Send} (hsend : v.session.send? = some x)

include hsend

theorem pad_turn : v.turn.station.pad = (x.step v.station.now false v.station.pad).world := by
  cases hsession : v.session with
  | waiting => simp [hsession, Realtime.send?] at hsend
  | looking meant => simp [hsession, Realtime.send?] at hsend
  | sending meant y =>
    obtain rfl : y = x := by simpa [hsession, Realtime.send?] using hsend
    simp only [turn, hsession, Realtime.serve, Realtime.step]
    cases y.step v.station.now false v.station.pad <;> rfl
  | sleeping sleep => simp [hsession, Realtime.send?] at hsend
  | releasing y =>
    obtain rfl : y = x := by simpa [hsession, Realtime.send?] using hsend
    simp only [turn, hsession, Realtime.serve, Realtime.step]
    cases y.step v.station.now false v.station.pad <;> rfl

theorem sends_turn : v.turn.sends = v.sends ++
    ((x.taken? v.station.now false v.station.pad).map fun taken => (x.line, taken)).toList := by
  rw [turn, ended, hsend, Option.bind_some]

/-- A step of a send keeps the last report and the line that was taken last together. -/
theorem Kept.last_of_send (h : v.Kept) (hmeans : x.Means v.station.pad) :
    v.turn.lastReport? = (lastTaken? v.turn.sends).map v.turn.station.pad.encode := by
  have htells := Send.tells_step h.profile hmeans v.station.now false
  have hencode := Pad.encode_congr (x.next_world v.station.now false v.station.pad).profile
  rw [lastReport?, sends_turn hsend, pad_turn hsend, hencode, Send.taken?]
  have hlast := h.last
  rw [lastReport?] at hlast
  cases hstep : x.step v.station.now false v.station.pad with
  | wait p x' again =>
    rw [hstep] at htells
    simpa [Turn.world, htells.2.1] using hlast
  | go p x' =>
    rw [hstep] at htells
    simpa [Turn.world, htells.2.1] using hlast
  | done p result =>
    rw [hstep] at htells
    cases result with
    | ok _ => simp [Turn.world, htells.2]
    | error e => simpa [Turn.world, htells.2] using hlast

/-- A step of a send leaves the live line alone. -/
theorem Kept.slot_of_send (h : v.Kept) (hmeans : x.Means v.station.pad) :
    v.turn.slot = v.slot := by
  have htells := Send.tells_step h.profile hmeans v.station.now false
  rw [slot, pad_turn hsend]
  cases hstep : x.step v.station.now false v.station.pad with
  | wait p x' again =>
    rw [hstep] at htells
    exact htells.1
  | go p x' =>
    rw [hstep] at htells
    exact htells.1
  | done p result =>
    rw [hstep] at htells
    cases result with
    | ok _ => exact htells.1
    | error e => exact htells.1

/-- A send that is not over goes on with its line and the report of it. -/
theorem Kept.means_of_send (h : v.Kept) (hmeans : x.Means v.station.pad) {x' : Send}
    (hstate : (x.step v.station.now false v.station.pad).state? = some x') :
    x'.line = x.line ∧ x'.Means v.turn.station.pad := by
  have htells := Send.tells_step h.profile hmeans v.station.now false
  rw [pad_turn hsend]
  cases hstep : x.step v.station.now false v.station.pad with
  | wait p x'' again =>
    rw [hstep] at htells hstate
    obtain rfl := Option.some.inj hstate
    exact htells.2.2
  | go p x'' =>
    rw [hstep] at htells hstate
    obtain rfl := Option.some.inj hstate
    exact htells.2.2
  | done p result => simp [hstep, Turn.state?] at hstate

/-- When a send is over, its line is the latest one. -/
theorem endsWith_of_send (hstate : (x.step v.station.now false v.station.pad).state? = none) :
    v.turn.EndsWith x.line := by
  rw [EndsWith, sends_turn hsend, Send.taken?]
  cases hstep : x.step v.station.now false v.station.pad with
  | wait p x' again => simp [hstep, Turn.state?] at hstate
  | go p x' => simp [hstep, Turn.state?] at hstate
  | done p result =>
    cases result with
    | ok _ => exact ⟨v.sends, true, rfl⟩
    | error e => exact ⟨v.sends, false, rfl⟩

end Send

/-- A step that sends nothing changes at most the live line. -/
theorem Kept.of_slot {v' : Relay} (h : v.Kept) (slot : LiveSlot)
    (hpad : v'.station.pad = { v.station.pad with slot := slot }) (hsends : v'.sends = v.sends)
    (hphase : v'.InPhase) : v'.Kept where
  profile := by rw [hpad]; exact h.profile
  last := by
    have hencode : v'.station.pad.encode = v.station.pad.encode :=
      Pad.encode_congr (by rw [hpad])
    rw [hsends, hencode, ← h.last, lastReport?, lastReport?, hpad]
  phase := hphase

theorem Kept.of_waiting (h : v.Kept) (hsession : v.session = .waiting) : v.turn.Kept := by
  have hnews : v.slot.HasNews := by simpa [InPhase, hsession] using h.phase
  have hsends : v.turn.sends = v.sends := by simp [turn, ended, hsession, Realtime.send?]
  cases hstarted : v.station.pad.slot.started with
  | true =>
    have hstep : v.session.serve v.station =
        .go { v.station with pad := { v.station.pad with
            slot := { v.slot with started := false } } }
          (.looking v.station.now) := by
      simp [hsession, Realtime.serve, Realtime.step, LiveSlot.takeStarted, hstarted, Turn.within,
        slot]
    refine h.of_slot { v.slot with started := false } (by rw [turn, hstep]; rfl) hsends ?_
    simp only [InPhase, turn, hstep]
    exact .inl hnews
  | false =>
    have hstep : v.session.serve v.station = .wait v.station .waiting false := by
      simp [hsession, Realtime.serve, Realtime.step, LiveSlot.takeStarted, hstarted, Turn.within]
    refine h.of_slot v.slot (by rw [turn, hstep]; rfl) hsends ?_
    simp only [InPhase, turn, hstep]
    exact hnews

/-- The live line at a look. -/
def decayed (v : Relay) : LiveSlot :=
  v.slot.decay v.station.now v.station.pad.timing.realtimeIdle

/-- What a look comes to: the end of the session, a send, or sleep. -/
theorem serve_of_looking {meant : Nat} (hsession : v.session = .looking meant) :
    (v.slot.active = false ∧
        v.session.serve v.station = .go v.station (.releasing (.ofLine [] none))) ∨
      (v.slot.active = true ∧ v.decayed.dirty = true ∧
        v.session.serve v.station =
          .go { v.station with pad := { v.station.pad with
              slot := { v.decayed with dirty := false } } }
            (.sending meant (.ofLine v.decayed.shown none))) ∨
      (v.slot.active = true ∧ v.decayed.dirty = false ∧
        ∃ sleep, v.session.serve v.station =
          .go { v.station with pad := { v.station.pad with slot := v.decayed } }
            (.sleeping sleep)) := by
  simp only [hsession, Realtime.serve, Realtime.step, Realtime.look, Pad.isRealtime,
    LiveSlot.takeChange]
  cases hactive : v.slot.active with
  | false =>
    rw [slot] at hactive
    simp [hactive, Turn.within]
  | true =>
    cases hdirty : v.decayed.dirty with
    | true =>
      rw [slot] at hactive
      rw [decayed, slot] at hdirty
      simp [hactive, hdirty, decayed, slot, Turn.within]
    | false =>
      rw [slot] at hactive
      rw [decayed, slot] at hdirty
      simp [hactive, hdirty, decayed, slot, Turn.within, Realtime.pause]

theorem Kept.of_looking {meant : Nat} (h : v.Kept) (hsession : v.session = .looking meant) :
    v.turn.Kept := by
  have hphase : v.slot.HasNews ∨ ∃ line, v.EndsWith line ∧ v.slot.Presents line := by
    simpa [InPhase, hsession] using h.phase
  have hsends : v.turn.sends = v.sends := by simp [turn, ended, hsession, Realtime.send?]
  have hseen : v.turn.seen = v.decayed.shown := by simp [turn, look, hsession, decayed]
  rcases serve_of_looking hsession with
    ⟨hactive, hstep⟩ | ⟨hactive, hdirty, hstep⟩ | ⟨hactive, hdirty, sleep, hstep⟩
  · refine h.of_slot v.slot (by rw [turn, hstep]; rfl) hsends ?_
    have hsession' : v.turn.session = .releasing (.ofLine [] none) := by rw [turn, hstep]; rfl
    have hslot : v.turn.slot = v.slot := by rw [slot, turn, hstep]; rfl
    rw [InPhase, hsession', hslot]
    exact ⟨fun hactive' => by simp [hactive] at hactive', Send.means_of_asking rfl⟩
  · have hpad : v.turn.station.pad =
        { v.station.pad with slot := { v.decayed with dirty := false } } := by rw [turn, hstep]; rfl
    refine h.of_slot _ hpad hsends ?_
    have hsession' : v.turn.session = .sending meant (.ofLine v.decayed.shown none) := by
      rw [turn, hstep]
      rfl
    have hslot : v.turn.slot = { v.decayed with dirty := false } := by rw [slot, turn, hstep]; rfl
    rw [InPhase, hsession', hslot, hseen]
    exact ⟨rfl, .inr rfl, Send.means_of_asking rfl⟩
  · -- no change is to be told, so the latest send was the one of the line that shows
    have hsame : v.decayed = v.slot := LiveSlot.decay_eq_of_dirty hdirty
    rw [hsame] at hdirty hseen
    refine h.of_slot v.slot (by rw [turn, hstep, ← hsame]; rfl) hsends ?_
    have hsession' : v.turn.session = .sleeping sleep := by rw [turn, hstep]; rfl
    have hslot : v.turn.slot = v.slot := by rw [slot, turn, hstep, ← hsame]; rfl
    rw [InPhase, hsession', hslot, hseen, EndsWith, hsends]
    refine ⟨?_, .inr rfl⟩
    rcases hphase with hnews | ⟨line, hends, hdirty' | hshown⟩
    · simp [hnews hactive] at hdirty
    · simp [hdirty'] at hdirty
    · exact hshown ▸ hends

/-- A session that sends goes on with its send, or sleeps when the send is over. -/
theorem session_of_sending {meant : Nat} {x : Send} (hsession : v.session = .sending meant x) :
    (∃ x', (x.step v.station.now false v.station.pad).state? = some x' ∧
        v.turn.session = .sending meant x') ∨
      (x.step v.station.now false v.station.pad).state? = none ∧
        ∃ sleep, v.turn.session = .sleeping sleep := by
  simp only [turn, hsession, Realtime.serve, Realtime.step]
  cases x.step v.station.now false v.station.pad with
  | wait p x' again => exact .inl ⟨x', rfl, rfl⟩
  | go p x' => exact .inl ⟨x', rfl, rfl⟩
  | done p result => exact .inr ⟨rfl, _, rfl⟩

theorem Kept.of_sending {meant : Nat} {x : Send} (h : v.Kept)
    (hsession : v.session = .sending meant x) : v.turn.Kept := by
  obtain ⟨hline, hpresents, hmeans⟩ :
      x.line = v.seen ∧ v.slot.Presents v.seen ∧ x.Means v.station.pad := by
    simpa [InPhase, hsession] using h.phase
  have hsend : v.session.send? = some x := by rw [hsession]; rfl
  have hprofile := (x.next_world v.station.now false v.station.pad).profile
  refine ⟨by rw [pad_turn hsend, hprofile]; exact h.profile, h.last_of_send hsend hmeans, ?_⟩
  -- the live line may change while the send goes on, but then there is news
  have hseen : v.turn.seen = v.seen := by simp [turn, look, hsession]
  rw [← hseen] at hpresents hline
  rw [← h.slot_of_send hsend hmeans] at hpresents
  rcases session_of_sending hsession with ⟨x', hstate, hturn⟩ | ⟨hstate, sleep, hturn⟩
  · obtain ⟨hline', hmeans'⟩ := h.means_of_send hsend hmeans hstate
    rw [InPhase, hturn]
    exact ⟨hline'.trans hline, hpresents, hmeans'⟩
  · rw [InPhase, hturn, ← hline]
    exact ⟨endsWith_of_send hsend hstate, hline ▸ hpresents⟩

/-- A session that sleeps goes on sleeping, or it is time for a look. -/
theorem serve_of_sleeping {sleep : Sleep} (hsession : v.session = .sleeping sleep) :
    (∃ sleep' again, v.session.serve v.station = .wait v.station (.sleeping sleep') again) ∨
      ∃ meant, v.session.serve v.station = .go v.station (.looking meant) := by
  simp only [hsession, Realtime.serve, Realtime.step, Sleep.step]
  split
  · exact .inr ⟨_, rfl⟩
  · exact .inl ⟨_, _, rfl⟩

theorem Kept.of_sleeping {sleep : Sleep} (h : v.Kept) (hsession : v.session = .sleeping sleep) :
    v.turn.Kept := by
  obtain ⟨hends, hpresents⟩ : v.EndsWith v.seen ∧ v.slot.Presents v.seen := by
    simpa [InPhase, hsession] using h.phase
  have hsends : v.turn.sends = v.sends := by simp [turn, ended, hsession, Realtime.send?]
  have hseen : v.turn.seen = v.seen := by simp [turn, look, hsession]
  rcases serve_of_sleeping hsession with ⟨sleep', again, hstep⟩ | ⟨meant, hstep⟩
  · refine h.of_slot v.slot (by rw [turn, hstep]; rfl) hsends ?_
    have hsession' : v.turn.session = .sleeping sleep' := by rw [turn, hstep]; rfl
    have hslot : v.turn.slot = v.slot := by rw [slot, turn, hstep]; rfl
    rw [InPhase, hsession', hslot, hseen, EndsWith, hsends]
    exact ⟨hends, hpresents⟩
  · refine h.of_slot v.slot (by rw [turn, hstep]; rfl) hsends ?_
    have hsession' : v.turn.session = .looking meant := by rw [turn, hstep]; rfl
    have hslot : v.turn.slot = v.slot := by rw [slot, turn, hstep]; rfl
    rw [InPhase, hsession', hslot]
    refine .inr ⟨v.seen, ?_, hpresents⟩
    rwa [EndsWith, hsends]

/-- A session that lets everything go goes on with its send, or waits when the send is over. -/
theorem session_of_releasing {x : Send} (hsession : v.session = .releasing x) :
    (∃ x', (x.step v.station.now false v.station.pad).state? = some x' ∧
        v.turn.session = .releasing x') ∨
      (x.step v.station.now false v.station.pad).state? = none ∧ v.turn.session = .waiting := by
  simp only [turn, hsession, Realtime.serve, Realtime.step]
  cases x.step v.station.now false v.station.pad with
  | wait p x' again => exact .inl ⟨x', rfl, rfl⟩
  | go p x' => exact .inl ⟨x', rfl, rfl⟩
  | done p result => exact .inr ⟨rfl, rfl⟩

theorem Kept.of_releasing {x : Send} (h : v.Kept) (hsession : v.session = .releasing x) :
    v.turn.Kept := by
  obtain ⟨hnews, hmeans⟩ : v.slot.HasNews ∧ x.Means v.station.pad := by
    simpa [InPhase, hsession] using h.phase
  have hsend : v.session.send? = some x := by rw [hsession]; rfl
  have hprofile := (x.next_world v.station.now false v.station.pad).profile
  refine ⟨by rw [pad_turn hsend, hprofile]; exact h.profile, h.last_of_send hsend hmeans, ?_⟩
  rw [← h.slot_of_send hsend hmeans] at hnews
  rcases session_of_releasing hsession with ⟨x', hstate, hturn⟩ | ⟨-, hturn⟩
  · rw [InPhase, hturn]
    exact ⟨hnews, (h.means_of_send hsend hmeans hstate).2⟩
  · rw [InPhase, hturn]
    exact hnews

/-- **A step of the session keeps this true.** -/
theorem kept_turn (h : v.Kept) : v.turn.Kept := by
  cases hsession : v.session with
  | waiting => exact h.of_waiting hsession
  | looking meant => exact h.of_looking hsession
  | sending meant x => exact h.of_sending hsession
  | sleeping sleep => exact h.of_sleeping hsession
  | releasing x => exact h.of_releasing hsession

/-- **So does everything that happens to the station.** -/
theorem kept_happen (h : v.Kept) (happening : Happening) :
    Kept { v with station := v.station.undergo setup happening } := by
  obtain ⟨-, slot', next, hserved, hpad⟩ := v.station.undergo_eq setup happening
  have hprofile : (v.station.undergo setup happening).pad.profile = v.station.pad.profile := by
    rw [hpad]
  refine ⟨hprofile.trans h.profile, ?_, ?_⟩
  · rw [lastReport?, Pad.encode_congr hprofile, ← h.last, lastReport?, hpad]
  · have hslot : slot { v with station := v.station.undergo setup happening } = slot' := by
      rw [slot, hpad]
    have hphase := h.phase
    unfold InPhase at hphase ⊢
    rw [hslot]
    cases hsession : v.session with
    | waiting =>
      rw [hsession] at hphase
      exact hphase.of_served hserved
    | looking meant =>
      rw [hsession] at hphase
      exact hphase.imp (·.of_served hserved) fun ⟨line, hends, hpresents⟩ =>
        ⟨line, hends, hpresents.of_served hserved⟩
    | sending meant x =>
      rw [hsession] at hphase
      obtain ⟨hline, hpresents, hmeans⟩ := hphase
      exact ⟨hline, hpresents.of_served hserved, hmeans.congr hprofile⟩
    | sleeping sleep =>
      rw [hsession] at hphase
      exact ⟨hphase.1, hphase.2.of_served hserved⟩
    | releasing x =>
      rw [hsession] at hphase
      exact ⟨hphase.1.of_served hserved, hphase.2.congr hprofile⟩

theorem kept_play (h : v.Kept) (moves : List Move) : (v.play setup moves).Kept := by
  induction moves generalizing v with
  | nil => exact h
  | cons move rest ih =>
    cases move with
    | turn => exact ih (kept_turn h)
    | happen happening => exact ih (kept_happen h happening)

theorem kept_begin (hprofile : setup.config.profile = .horipadS) (clock : Clock) (now : Nat) :
    (begin setup clock now).Kept :=
  ⟨hprofile, rfl, fun hactive => nomatch hactive⟩

/-- **After a look the host shows the live line if and only if the latest send was taken, or the
line that was taken before has the same report.** The latest send was the one of this line. -/
theorem isInStep_iff (hprofile : setup.config.profile = .horipadS) {clock : Clock} {now : Nat}
    {moves : List Move} (hplay : (begin setup clock now).play setup moves = v) {sleep : Sleep}
    (hsleep : v.session = .sleeping sleep) :
    ∃ past taken, v.sends = past ++ [(v.seen, taken)] ∧
      (v.IsInStep ↔ taken = true ∨
        (lastTaken? past).map v.station.pad.encode = some (v.station.pad.encode v.seen)) := by
  have hkept : v.Kept := hplay ▸ kept_play (kept_begin hprofile clock now) moves
  have hphase := hkept.phase
  rw [InPhase, hsleep] at hphase
  obtain ⟨⟨past, taken, hsends⟩, -⟩ := hphase
  refine ⟨past, taken, hsends, ?_⟩
  rw [IsInStep, hkept.last, hsends]
  cases taken with
  | true => simp
  | false => simp

/-- The payload that sets the line `A`. -/
def pressA : Move := .happen (.payload "\x7b\"realtime\":\"A\"\x7d".toList)

/-- Realtime mode begins, and nothing held is shown. Then the line `A` is refused, and it comes once
more before the session looks again at a sink that is well. -/
def refused : List Move :=
  [.happen (.payload "\x7b\"realtime\":\"action_start\"\x7d".toList), .turn, .turn, .turn, .turn,
    pressA, .happen (.outcomes [.refused .disconnected]), .happen (.time 3000), .turn, .turn, .turn,
    .turn, pressA, .happen (.time 6000), .turn]

/-- The session at this look. -/
def atLook : Relay := (begin Callers.plain .prompt 0).play Callers.plain refused

theorem turn_atLook :
    (atLook.turn.session, atLook.turn.seen) = (.sleeping (.til 9000), ['A']) := by
  decide +kernel

/-- **A failure is not made good**, although the sink would take a report at this look and the
client repeats its line. -/
theorem not_isInStep_refused :
    (atLook.session, atLook.slot.active, atLook.station.pad.sink.outcomes) =
        (.looking 6000, true, []) ∧
      (atLook.turn.session, atLook.turn.seen) = (.sleeping (.til 9000), ['A']) ∧
      ¬ atLook.turn.IsInStep :=
  ⟨by decide +kernel, turn_atLook, by decide +kernel⟩

/-- The same look: the latest send was refused, and what was taken before shows something else. -/
theorem isInStep_iff_refused :
    (begin Callers.plain .prompt 0).play Callers.plain (refused ++ [.turn]) = atLook.turn ∧
      atLook.turn.session = .sleeping (.til 9000) ∧
      ∃ past taken, atLook.turn.sends = past ++ [(['A'], taken)] ∧
        (atLook.turn.IsInStep ↔ taken = true ∨
          (lastTaken? past).map atLook.turn.station.pad.encode =
            some (atLook.turn.station.pad.encode ['A'])) := by
  have hplay : (begin Callers.plain .prompt 0).play Callers.plain (refused ++ [.turn]) =
      atLook.turn := by
    rw [play, List.foldl_append]
    rfl
  obtain ⟨hsleep, hseen⟩ := Prod.mk.inj turn_atLook
  exact ⟨hplay, hsleep, hseen ▸ isInStep_iff rfl hplay hsleep⟩

end Relay

end PadScript
