import PadScript.Proofs.Joystick.Grip

/-!
# A run beside a session of realtime mode

On a joystick two tasks share the sink, and nobody else uses it: the runner, which plays requests,
and the session of realtime mode, which shows the live line. A `Duet` is the two of them taking
turns. A session notices the end of realtime mode at its next look only, and lets everything go
then; and a beginning of the mode that was over at once is still told to it. So a session can want
to send when realtime mode has been off for some time, and a run may have begun in the meantime.

Tasks take turns: a task that goes on is not interrupted, and another one has its turn only when it
waits. A run may have to wait for the sink before its first send, but not afterwards.

* `Duet.gripped_step` : **a run that has had the sink holds it, or it is its turn and the sink is
  free.**
* `Duet.sent_play` : every report that the sink takes comes from an attempt of the run or of the
  session.
* `Duet.isAlone_attempts` : **from the first send of a run to its end all reports are the run's**,
  whether realtime mode is on or off.
-/

namespace PadScript

/-! ### A run and a session -/

/-- Who makes an attempt. -/
inductive Party where
  /-- The run. -/
  | run
  /-- The session. -/
  | session
deriving DecidableEq, Repr

/-- An attempt to send a report. -/
structure Attempt where
  /-- Who makes it. -/
  party : Party
  /-- The report and the time, if the sink takes it. -/
  taken? : Option (Nat × List UInt8)
deriving DecidableEq, Repr

/-- The task that plays requests and the task that serves realtime mode, taking turns on one
station. -/
structure Duet where
  /-- The station. -/
  station : Station
  /-- The runner. -/
  runner : Runner
  /-- The session. -/
  session : Realtime
  /-- Who is in the middle of a turn, if one of them is. -/
  turn? : Option Party
  /-- There is a run, and it has begun its first send: it has had the sink. -/
  begun : Bool

/-- What can come next. -/
inductive Duet.Move where
  /-- The runner makes a step, unless it is the turn of the session. -/
  | run
  /-- The session makes a step, unless it is the turn of the runner. -/
  | serve
  /-- Something happens to the station. -/
  | happen (happening : Happening)

namespace Duet

/-- The sink. -/
def sink (v : Duet) : Sink := v.station.pad.sink

variable (setup : Setup)

/-- The runner makes a step. -/
def run (v : Duet) : Duet :=
  let turn := v.runner.step setup v.station
  let runner := turn.state?.getD .idle
  { v with
    station := turn.world
    runner := runner
    turn? := if turn.goesOn then some .run else none
    begun := runner.isPlaying && (v.begun || runner.hasSink) }

/-- The session makes a step. -/
def serve (v : Duet) : Duet :=
  let turn := v.session.serve v.station
  { v with
    station := turn.world
    session := turn.state?.getD .waiting
    turn? := if turn.goesOn then some .session else none }

/-- What is left after a move. -/
def step (v : Duet) : Move → Duet
  | .run => if v.turn? = some .session then v else v.run setup
  | .serve => if v.turn? = some .run then v else v.serve
  | .happen happening => { v with station := v.station.undergo setup happening }

/-- What is left after some moves. -/
def play (v : Duet) (moves : List Move) : Duet := moves.foldl (step setup) v

/-- A pad that is switched on, with no run and no session. -/
def begin (clock : Clock) (now : Nat) : Duet :=
  ⟨setup.station clock now, .idle, .waiting, none, false⟩

/-- The attempt that is made between two states of the sink, if one is. -/
def attempt? (party : Party) (s s' : Sink) : Option Attempt :=
  if s'.attempts = s.attempts then none else some ⟨party, s'.sent[s.sent.length]?⟩

/-- The attempt of a move, if it makes one. -/
def attemptOf (v : Duet) : Move → Option Attempt
  | .run => attempt? .run v.sink (v.step setup .run).sink
  | .serve => attempt? .session v.sink (v.step setup .serve).sink
  | .happen _ => none

/-- The attempts of some moves. -/
def attempts (v : Duet) : List Move → List Attempt
  | [] => []
  | move :: rest => (v.attemptOf setup move).toList ++ (v.step setup move).attempts rest

/-- Before each of the moves there is a run that has begun its first send. -/
def RunsOn (v : Duet) (moves : List Move) : Prop :=
  ∀ k < moves.length, (v.play setup (moves.take k)).begun = true

instance (v : Duet) (moves : List Move) : Decidable (v.RunsOn setup moves) :=
  inferInstanceAs (Decidable (∀ k < moves.length, _ = true))

/-- All these attempts are made by the run. -/
def IsAlone (attempts : List Attempt) : Prop := ∀ a ∈ attempts, a.party = .run

/-- What stays true of the two tasks: which of them may hold the sink. -/
structure Gripped (v : Duet) : Prop where
  /-- The pad is a joystick. -/
  profile : v.station.pad.profile = .horipadS
  /-- The run keeps nothing held without a send. -/
  bare : v.runner.IsBare
  /-- The sink is known to be held by the run. -/
  run : Send.Holds v.runner.send? → v.station.pad.sinkHeld = true
  /-- The sink is known to be held by the session. -/
  session : Send.Holds v.session.send? → v.station.pad.sinkHeld = true
  /-- They do not both hold it. -/
  sole : Send.Holds v.runner.send? → ¬Send.Holds v.session.send?
  /-- A run that has begun its first send holds the sink, or it is in the middle of its turn and the
  sink is free. -/
  grip : v.begun = true →
    Send.Holds v.runner.send? ∨ v.turn? = some .run ∧ v.station.pad.sinkHeld = false

variable {setup} {v : Duet}

/-! ### The attempts and the reports -/

theorem sent_eq_of_tries {s s' : Sink} (h : s.Tries s') (party : Party) :
    s'.sent = s.sent ++ (attempt? party s s').toList.filterMap Attempt.taken? := by
  cases h with
  | nothing hsent hattempts => simp [attempt?, hattempts, hsent]
  | taken hsent hattempts => simp [attempt?, hattempts, hsent]
  | refused hsent hattempts => simp [attempt?, hattempts, hsent]

/-- A move adds the report of its attempt. -/
theorem sent_step (move : Move) : (v.step setup move).sink.sent =
    v.sink.sent ++ (v.attemptOf setup move).toList.filterMap Attempt.taken? := by
  cases move with
  | run =>
    refine sent_eq_of_tries ?_ .run
    simp only [step]
    split
    · exact .refl v.sink
    · exact v.runner.tries_step v.station
  | serve =>
    refine sent_eq_of_tries ?_ .session
    simp only [step]
    split
    · exact .refl v.sink
    · exact v.session.tries_serve v.station
  | happen happening =>
    obtain ⟨-, slot, next, -, hpad⟩ := v.station.undergo_eq setup happening
    simp [step, sink, hpad, attemptOf]

/-- **Every report that the sink takes comes from an attempt.** -/
theorem sent_play (moves : List Move) : (v.play setup moves).sink.sent =
    v.sink.sent ++ (v.attempts setup moves).filterMap Attempt.taken? := by
  induction moves generalizing v with
  | nil => simp [play, attempts]
  | cons move rest ih =>
    have hrest := @ih (v.step setup move)
    rw [sent_step, List.append_assoc, ← List.filterMap_append] at hrest
    exact hrest

/-! ### The sink in the hands of the run -/

theorem gripped_begin (hprofile : setup.config.profile = .horipadS) (clock : Clock) (now : Nat) :
    (begin setup clock now).Gripped :=
  ⟨hprofile, Runner.isFresh_idle.isBare, fun h => absurd h Send.not_holds_none,
    fun h => absurd h Send.not_holds_none, fun _ => Send.not_holds_none, by rintro ⟨⟩⟩

/-- The runner is never done. -/
theorem exists_run (setup : Setup) (v : Duet) : ∃ r,
    (v.runner.step setup v.station).state? = some r ∧ (v.run setup).runner = r := by
  cases hrunner : v.runner with
  | idle =>
    rcases Runner.step_of_idle setup v.station with hstep | ⟨s', r, hstep, -, -⟩
    · exact ⟨_, by rw [hstep]; rfl, by rw [run, hrunner, hstep]; rfl⟩
    · exact ⟨_, by rw [hstep]; rfl, by rw [run, hrunner, hstep]; rfl⟩
  | playing e =>
    cases hstep : e.step v.station with
    | wait s' e' again =>
      exact ⟨.playing e', by simp [Runner.step, hstep, Turn.within, Turn.state?],
        by simp [run, hrunner, Runner.step, hstep, Turn.within, Turn.state?]⟩
    | go s' e' =>
      exact ⟨.playing e', by simp [Runner.step, hstep, Turn.within, Turn.state?],
        by simp [run, hrunner, Runner.step, hstep, Turn.within, Turn.state?]⟩
    | done s' outcome =>
      exact ⟨.idle, by simp [Runner.step, hstep, Turn.within, Turn.state?],
        by simp [run, hrunner, Runner.step, hstep, Turn.within, Turn.state?]⟩

/-- A run that has begun its first send keeps its grip in a step. -/
theorem Gripped.grip_run (h : v.Gripped) (hbegun : (v.run setup).begun = true) :
    Send.Holds (v.run setup).runner.send? ∨
      (v.run setup).turn? = some .run ∧ (v.run setup).station.pad.sinkHeld = false := by
  by_cases hholds : Send.Holds (v.run setup).runner.send?
  · exact .inl hholds
  · right
    -- it has the sink no more, so it has begun before
    have hbefore : v.begun = true := by
      have hnot : (v.run setup).runner.hasSink ≠ true := fun hsink =>
        hholds (Runner.hasSink_iff.1 hsink)
      simp only [Duet.run, Bool.and_eq_true, Bool.or_eq_true] at hbegun hnot
      exact hbegun.2.resolve_right hnot
    have hleft : v.station.pad.LeftTo v.runner.send? := fun hheld =>
      (h.grip hbefore).resolve_right fun hfree => by simp [hfree.2] at hheld
    cases hrunner : v.runner with
    | idle =>
      rw [hrunner] at hleft
      have hfree : v.station.pad.sinkHeld = false := by
        refine hleft.free fun x hx => ?_
        cases hx
      rcases Runner.step_of_idle setup v.station with hstep | ⟨s', r, hstep, hpad, -⟩
      · simp [Duet.run, hrunner, hstep, Turn.state?, Runner.isPlaying] at hbegun
      · simp [Duet.run, hrunner, hstep, Turn.goesOn, Turn.world, hpad, hfree]
    | playing e =>
      rw [hrunner] at hleft
      have hgrips : ((Runner.playing e).step setup v.station).Grips Station.pad Runner.send? :=
        Runner.grips_step h.profile (h.bare e hrunner) hleft
      cases hstep : (Runner.playing e).step setup v.station with
      | wait s' r again =>
        rw [hstep] at hgrips
        simp only [Duet.run, hrunner, hstep, Turn.state?, Option.getD_some] at hholds
        exact absurd hgrips hholds
      | go s' r =>
        rw [hstep] at hgrips
        simp only [Duet.run, hrunner, hstep, Turn.state?, Option.getD_some] at hholds
        simp only [Duet.run, hrunner, hstep, Turn.goesOn, Turn.world, if_true, true_and]
        cases hheld : s'.pad.sinkHeld with
        | false => rfl
        | true => exact absurd (hgrips hheld) hholds
      | done s' outcome =>
        simp [Duet.run, hrunner, hstep, Turn.state?, Runner.isPlaying] at hbegun

/-- The runner makes a step. -/
theorem Gripped.run_step (h : v.Gripped) : (v.run setup).Gripped := by
  obtain ⟨r, hstate, hr⟩ := exists_run setup v
  have hdeals := v.runner.deals_step h.profile setup
  rw [hstate, Option.bind_some] at hdeals
  refine ⟨hdeals.profile.trans h.profile, ?_, ?_, fun hsession => ?_, ?_, h.grip_run⟩
  · rw [hr]
    exact Runner.isBare_step h.profile h.bare hstate
  · rw [hr]
    exact hdeals.held h.run
  · exact hdeals.kept (h.session hsession) fun hrun => h.sole hrun hsession
  · rw [hr]
    intro hrun hsession
    have hnot : ¬Send.Holds v.runner.send? := fun hrun' => h.sole hrun' hsession
    have hfree := hdeals.free hrun hnot
    simp [h.session hsession] at hfree

/-- The session is never done. -/
theorem exists_serve (v : Duet) : ∃ r,
    (v.session.serve v.station).state? = some r ∧ v.serve.session = r := by
  simp only [serve, Realtime.serve]
  cases v.session.step v.station with
  | wait s' r again => exact ⟨r, rfl, rfl⟩
  | go s' r => exact ⟨r, rfl, rfl⟩
  | done s' outcome => exact ⟨.waiting, rfl, rfl⟩

/-- The session makes a step, when it is not the turn of the run. -/
theorem Gripped.serve_step (h : v.Gripped) (hturn : v.turn? ≠ some .run) : v.serve.Gripped := by
  obtain ⟨r, hstate, hr⟩ := exists_serve v
  have hdeals := v.session.deals_serve h.profile
  rw [hstate, Option.bind_some] at hdeals
  refine ⟨hdeals.profile.trans h.profile, h.bare, fun hrun => ?_, ?_, fun hrun => ?_,
    fun hbegun => ?_⟩
  · exact hdeals.kept (h.run hrun) (h.sole hrun)
  · rw [hr]
    exact hdeals.held h.session
  · rw [hr]
    intro hsession
    have hfree := hdeals.free hsession (h.sole hrun)
    simp [h.run hrun] at hfree
  · exact .inl ((h.grip hbegun).resolve_right fun hfree => hturn hfree.1)

/-- Something happens to the station. -/
theorem Gripped.happen (h : v.Gripped) (happening : Happening) :
    (v.step setup (.happen happening)).Gripped := by
  obtain ⟨-, slot, next, -, hpad⟩ := v.station.undergo_eq setup happening
  have hheld : (v.station.undergo setup happening).pad.sinkHeld = v.station.pad.sinkHeld := by
    rw [hpad]
  refine ⟨?_, h.bare, fun hrun => hheld.trans (h.run hrun),
    fun hsession => hheld.trans (h.session hsession), h.sole, fun hbegun => ?_⟩
  · simp only [step, hpad]
    exact h.profile
  · exact (h.grip hbegun).imp_right fun hfree => ⟨hfree.1, hheld.trans hfree.2⟩

/-- **Whatever comes next, a run that has begun its first send holds the sink, or it is its turn and
the sink is free.** -/
theorem gripped_step (h : v.Gripped) (move : Move) : (v.step setup move).Gripped := by
  cases move with
  | run =>
    simp only [step]
    split
    · exact h
    · exact h.run_step
  | serve =>
    simp only [step]
    split
    · exact h
    next hturn => exact h.serve_step hturn
  | happen happening => exact h.happen happening

theorem gripped_play (h : v.Gripped) (moves : List Move) : (v.play setup moves).Gripped := by
  induction moves generalizing v with
  | nil => exact h
  | cons move rest ih => exact ih (gripped_step h move)

/-- While there is a run that has begun its first send, the session attempts nothing. -/
theorem Gripped.isAlone_step (h : v.Gripped) (hbegun : v.begun = true) (move : Move) :
    IsAlone (v.attemptOf setup move).toList := by
  intro a ha
  rw [Option.mem_toList] at ha
  cases move with
  | run =>
    simp only [attemptOf, attempt?, Option.ite_none_left_eq_some] at ha
    rw [← Option.some.inj ha.2]
  | serve =>
    have hsink : (v.step setup .serve).sink = v.sink := by
      simp only [step]
      split
      · rfl
      next hturn =>
        have hrun := (h.grip hbegun).resolve_right fun hfree => hturn hfree.1
        exact Realtime.sink_serve (h.sole hrun) v.station
    simp [attemptOf, attempt?, hsink] at ha
  | happen happening => cases ha

theorem Gripped.isAlone (h : v.Gripped) {moves : List Move} (hruns : v.RunsOn setup moves) :
    IsAlone (v.attempts setup moves) := by
  induction moves generalizing v with
  | nil =>
    intro a ha
    cases ha
  | cons move rest ih =>
    have hfirst : v.begun = true := hruns 0 (Nat.succ_pos _)
    have hrest := ih (gripped_step h move) fun k hk => hruns (k + 1) (Nat.succ_lt_succ hk)
    intro a ha
    rcases List.mem_append.1 ha with ha | ha
    · exact h.isAlone_step hfirst move a ha
    · exact hrest a ha

/-- **From the first send of a run to its end the sink takes the reports of the run and no other
ones**, in whatever order the runner, the session and the client get on, and whether realtime mode is
on or off. A send begins when it gets the sink, and a run ends when its release is over. -/
theorem isAlone_attempts (hprofile : setup.config.profile = .horipadS) {clock : Clock} {now : Nat}
    {past moves : List Move} (hpast : (begin setup clock now).play setup past = v)
    (hruns : v.RunsOn setup moves) :
    (v.play setup moves).sink.sent =
        v.sink.sent ++ (v.attempts setup moves).filterMap Attempt.taken? ∧
      IsAlone (v.attempts setup moves) := by
  have hgripped : v.Gripped := hpast ▸ gripped_play (gripped_begin hprofile clock now) past
  exact ⟨sent_play moves, hgripped.isAlone hruns⟩

/-- A macro of one line. -/
def press : Setup where
  library := Library.empty.add (.named "f.a".toList ⟨⟨["A:1".toList]⟩, ∅⟩)
  config := { Config.standard with profile := .horipadS }

/-- Realtime mode begins, and nothing held is shown. While the session sleeps the mode ends, and the
macro is asked for. Its first report is on its way when the time of the next look has come. -/
def pressing : List Move :=
  [.happen (.payload "\x7b\"realtime\":\"action_start\"\x7d".toList), .serve, .serve, .serve, .serve,
    .serve, .happen (.payload "\x7b\"realtime\":\"action_stop\"\x7d".toList),
    .happen (.payload "\x7b\"name\":\"f.a\"\x7d".toList), .happen (.time 3000),
    .run, .run, .run, .run]

/-- The run has got the sink for its first send. -/
def pressed : Duet := (begin press .prompt 0).play press pressing

/-- The run plays its line and ends. In between the session wants to let everything go. -/
def holding : List Move :=
  [.run, .serve, .run, .run, .run, .serve, .serve, .serve, .happen (.time 1003000), .serve, .run, .run,
    .run, .run, .run, .serve, .happen (.time 1006000), .run, .run]

theorem runsOn_holding : pressed.RunsOn press holding := by decide +kernel

/-- The session has to wait for the end of the run: the reports are those of the run. -/
theorem isAlone_attempts_holding :
    press.config.profile = .horipadS ∧ (begin press .prompt 0).play press pressing = pressed ∧
      pressed.RunsOn press holding ∧
      (pressed.play press holding).session = .releasing (.ofLine [] none) ∧
      (pressed.attempts press holding).map Attempt.taken? =
        [some (3000, (PadState.ofLine ['A']).joystick), some (1003000, (PadState.ofLine []).joystick),
          some (1006000, (PadState.ofLine []).joystick)] ∧
      (pressed.play press holding).sink.sent = pressed.sink.sent ++
        (pressed.attempts press holding).filterMap Attempt.taken? ∧
      IsAlone (pressed.attempts press holding) :=
  ⟨rfl, rfl, runsOn_holding, by decide +kernel, by decide +kernel,
    isAlone_attempts rfl (rfl : (begin press .prompt 0).play press pressing = pressed)
      runsOn_holding⟩

end Duet

end PadScript
