import PadScript.Proofs.Run.Cycle

/-!
# The timeline of a chain

When a line is played alone, every send of its chain has its time, and the times do not drift: each
is told by the one before it, by how long that element is held and by the least interval of the pad,
whatever the sink does in between. `Chain.plan` says which lines are sent and how long each is held,
`Chain.timed` when. An element `~` that keeps what is held is no send; it makes the hold of the one
before it longer, and at the end of a chain it stands in place of letting go.

* `Send.exists_performs` : a send that is alone takes effect when the pad and its caller allow it,
  or is refused then.
* `Action.exists_performs` : an action that is alone goes by the timeline, element by element.
* `Action.keeps_timeline` : **a line that is played alone keeps its timeline**, up to the first send
  that is refused, whose error it fails with.
-/

namespace PadScript

/-! ### What the timeline says -/

namespace Chain

/-- How long the elements at the beginning of a chain that are not sent keep what is held. -/
def lingering (keepsHeld : Bool) : List ChainElement → Nat
  | [] => 0
  | s :: rest => if s.isSilent keepsHeld then s.hold?.getD 0 + lingering keepsHeld rest else 0

/-- The lines of the elements that are sent, and how long each is held. -/
def sendings (keepsHeld : Bool) : List ChainElement → List (Text × Nat)
  | [] => []
  | s :: rest =>
    if s.isSilent keepsHeld then sendings keepsHeld rest
    else (s.line, s.hold + lingering keepsHeld rest) :: sendings keepsHeld rest

/-- At the end everything is let go, unless the last element keeps what is held. -/
def closing (keepsHeld held : Bool) (chain : List ChainElement) : List (Text × Nat) :=
  if chain.getLast?.elim held (·.isSilent keepsHeld) then [] else [([], 0)]

/-- All that is sent, and how long it is held. -/
def plan (keepsHeld : Bool) (chain : List ChainElement) : List (Text × Nat) :=
  sendings keepsHeld chain ++ closing keepsHeld false chain

/-- When everything is sent, from the time of the first send on: what is sent is held, and at least
for the least interval. -/
def timed (interval : Nat) : (time : Nat) → List (Text × Nat) → List Execution.Event
  | _, [] => []
  | time, (line, hold) :: rest => .sent line time :: timed interval (time + max hold interval) rest

/-- When the hold of the last send is over; without a send, the time is the one given. -/
def finish (interval : Nat) : (time : Nat) → List (Text × Nat) → (idle : Nat) → Nat
  | _, [], idle => idle
  | time, (_, hold) :: rest, _ => finish interval (time + max hold interval) rest (time + hold)

variable {keepsHeld held : Bool} {s : ChainElement} {rest : List ChainElement}

theorem lingering_of_silent (h : s.isSilent keepsHeld = true) :
    lingering keepsHeld (s :: rest) = s.hold?.getD 0 + lingering keepsHeld rest := by
  simp [lingering, h]

theorem lingering_of_loud (h : s.isSilent keepsHeld = false) :
    lingering keepsHeld (s :: rest) = 0 := by
  simp [lingering, h]

theorem sendings_of_silent (h : s.isSilent keepsHeld = true) :
    sendings keepsHeld (s :: rest) = sendings keepsHeld rest := by
  simp [sendings, h]

theorem sendings_of_loud (h : s.isSilent keepsHeld = false) :
    sendings keepsHeld (s :: rest) =
      (s.line, s.hold + lingering keepsHeld rest) :: sendings keepsHeld rest := by
  simp [sendings, h]

theorem closing_cons :
    closing keepsHeld held (s :: rest) = closing keepsHeld (s.isSilent keepsHeld) rest := by
  cases rest with
  | nil => rfl
  | cons s' rest => simp [closing, List.getLast?_cons]

end Chain

/-- The time of the first send that may be made from `now` on. -/
def Pacer.firstTime (p : Pacer) (now : Nat) : Nat :=
  match p.last? with
  | none => now
  | some last => max now (last + p.interval)

/-- No other task stands in the way of a send: the sink is free where it is needed. -/
def Pad.IsClear (p : Pad) : Prop := p.profile = .horipadS → p.sinkHeld = false

/-! ### What the sink says to a report -/

/-- What becomes of a report that is written, if `retries` more attempts may block: the error of the
attempt that fails for good, if one does, and what is left of what the sink has to say. -/
def Write.verdict : (retries : Nat) → List Outcome → Option OutputError × List Outcome
  | _, [] => (none, [])
  | _, .taken :: rest => (none, rest)
  | retries, .suspended :: rest => verdict retries rest
  | retries + 1, .refused .wouldBlock :: rest => verdict retries rest
  | _, .refused e :: rest => (some e, rest)

/-- What becomes of a send. Only on a joystick it is a report that can be refused. -/
def Profile.verdict (profile : Profile) (outcomes : List Outcome) :
    Option OutputError × List Outcome :=
  match profile with
  | .horipadS => Write.verdict Write.mostRetries outcomes
  | .proController => (none, outcomes)

/-! ### Waits that end at their time -/

namespace Wait

/-- When a wait that begins now and is not cancelled is over. -/
def endTime (now : Nat) (deadline? : Option Nat) : Nat := max now (deadline?.getD now)

@[simp] theorem endTime_none (now : Nat) : endTime now none = now := Nat.max_self now

theorem endTime_of_le {now deadline : Nat} (h : now ≤ deadline) :
    endTime now (some deadline) = deadline := Nat.max_eq_right h

/-- A wait that is not cancelled is over at once, or sleeps until its end. -/
theorem begin_cases (now : Nat) (deadline? : Option Nat) :
    begin now false deadline? = .over ∧ endTime now deadline? = now ∨
      ∃ deadline, begin now false deadline? = .sleeping deadline ∧
        now ≤ deadline ∧ endTime now deadline? = deadline := by
  cases deadline? with
  | none => exact .inl ⟨rfl, endTime_none now⟩
  | some deadline =>
    rcases Nat.lt_or_ge now deadline with hlt | hge
    · have hle := Nat.le_of_lt hlt
      exact .inr ⟨deadline, by simp [begin, Nat.not_le.2 hlt], hle, endTime_of_le hle⟩
    · exact .inl ⟨by simp [begin, hge], Nat.max_eq_left hge⟩

theorem look_self (deadline : Nat) : look deadline false deadline = .over := by simp [look]

end Wait

/-- Before the first element, only an earlier send has to be waited for. -/
theorem Pacer.endTime_deadline (p : Pacer) (now : Nat) :
    Wait.endTime now (p.deadline? none) = p.firstTime now := by
  unfold firstTime deadline?
  cases p.last? with
  | none => exact Wait.endTime_none now
  | some last => rfl

/-- After a send, the next one is due when the hold is over, and not before the least interval. -/
theorem Pacer.endTime_after {p : Pacer} {time : Nat} (hlast : p.last? = some time) (hold : Nat) :
    Wait.endTime time (p.deadline? (some (time + hold))) = time + max hold p.interval := by
  simp only [Pacer.deadline?, hlast, Wait.endTime, Option.getD_some]
  omega

/-! ### A send that is alone -/

namespace Send

/-- The time of the next step of a send that is alone: it sleeps until its deadline. -/
def nextTime (x : Send) (now : Nat) : Nat := Wait.endTime now x.deadline?

/-- The steps of a send that is alone and not cancelled, from `now` on until it is done: when that
is, the pad then, and what it has come to. -/
inductive Performs : (now : Nat) → Send → Pad → (later : Nat) → Pad → Except RunError Nat → Prop
  | done {now time : Nat} {x : Send} {p p' : Pad} {result : Except RunError Nat}
      (htime : x.nextTime now = time) (h : x.step time false p = .done p' result) :
      Performs now x p time p' result
  | step {now time later : Nat} {x x' : Send} {p p' p'' : Pad} {result : Except RunError Nat}
      (htime : x.nextTime now = time) (h : (x.step time false p).left? = some (p', x'))
      (hrest : Performs time x' p' later p'' result) :
      Performs now x p later p'' result

/-- What a send has come to at a time, on the pad `p`, by a verdict: it has taken effect, or it has
failed with the error of the attempt that was refused for good. -/
structure Settled (verdict : Option OutputError × List Outcome) (p : Pad) (time : Nat) (p' : Pad)
    (result : Except RunError Nat) : Prop where
  profile : p'.profile = p.profile
  interval : p'.pacer.interval = p.pacer.interval
  clear : p'.IsClear
  result : verdict = (none, p'.sink.outcomes) ∧ result = .ok time ∧ p'.pacer.last? = some time ∨
    ∃ e, verdict = (some e, p'.sink.outcomes) ∧ result = .error (.output e)

variable {now time : Nat} {x : Send} {p q : Pad} {verdict : Option OutputError × List Outcome}

theorem Settled.trans {p' : Pad} {result : Except RunError Nat}
    (h : Settled verdict q time p' result) (hprofile : q.profile = p.profile)
    (hinterval : q.pacer.interval = p.pacer.interval) : Settled verdict p time p' result where
  profile := h.profile.trans hprofile
  interval := h.interval.trans hinterval
  clear := h.clear
  result := h.result

/-- An attempt takes the report or refuses it for good, or there is a further one and the verdict is
still the same. -/
theorem writing_step (now : Nat) (p : Pad) {w : Write} (hphase : x.phase = .writing w) :
    (∃ p' result, x.step now false p = .done p' result ∧
        Settled (Write.verdict w.retries p.sink.outcomes) p now p' result) ∨
      ∃ o p' w', (x.step now false p).left? = some (p', { x with phase := .writing w' }) ∧
        p.sink.outcomes = o :: p'.sink.outcomes ∧ p'.profile = p.profile ∧ p'.pacer = p.pacer ∧
        Write.verdict w.retries p.sink.outcomes = Write.verdict w'.retries p'.sink.outcomes := by
  obtain ⟨report, retries⟩ := w
  simp only [step, hphase]
  unfold Write.step
  cases houtcomes : p.sink.outcomes with
  | nil =>
    refine .inl ⟨_, _, rfl, rfl, rfl, fun _ => rfl, .inl ⟨?_, rfl, rfl⟩⟩
    simp [letGo, Write.verdict]
  | cons o rest =>
    cases o with
    | taken => exact .inl ⟨_, _, rfl, rfl, rfl, fun _ => rfl, .inl ⟨rfl, rfl, rfl⟩⟩
    | suspended => exact .inr ⟨_, _, _, rfl, rfl, rfl, rfl, rfl⟩
    | refused e =>
      cases e with
      | wouldBlock =>
        cases retries with
        | zero => exact .inl ⟨_, _, rfl, rfl, rfl, fun _ => rfl, .inr ⟨_, rfl, rfl⟩⟩
        | succ retries => exact .inr ⟨_, _, _, rfl, rfl, rfl, rfl, rfl⟩
      | disconnected => exact .inl ⟨_, _, rfl, rfl, rfl, fun _ => rfl, .inr ⟨_, rfl, rfl⟩⟩
      | io => exact .inl ⟨_, _, rfl, rfl, rfl, fun _ => rfl, .inr ⟨_, rfl, rfl⟩⟩

/-- A report that is written is taken or refused at once: each attempt uses up an outcome. -/
theorem exists_performs_writing (now : Nat) (p : Pad) {x : Send} {w : Write}
    (hphase : x.phase = .writing w) :
    ∃ p' result, x.Performs now p now p' result ∧
      Settled (Write.verdict w.retries p.sink.outcomes) p now p' result := by
  have hnext : x.nextTime now = now := by simp [nextTime, deadline?, hphase]
  rcases writing_step now p hphase with ⟨p', result, hstep, hsettled⟩ | hstep
  · exact ⟨p', result, .done hnext hstep, hsettled⟩
  · obtain ⟨o, p', w', hleft, hcons, hprofile, hpacer, hverdict⟩ := hstep
    obtain ⟨p'', result, hperforms, hsettled⟩ :=
      exists_performs_writing now p' (x := { x with phase := .writing w' }) rfl
    rw [hverdict]
    exact ⟨p'', result, .step hnext hleft hperforms, hsettled.trans hprofile (congrArg _ hpacer)⟩
termination_by p.sink.outcomes.length
decreasing_by simp [hcons]

/-- When the wait is over, the line takes effect or is refused. -/
theorem exists_performs_proceed (hnext : x.nextTime now = time)
    (hstep : x.step time false p = x.proceed time q .over) :
    ∃ p' result, x.Performs now p time p' result ∧
      Settled (q.profile.verdict q.sink.outcomes) q time p' result := by
  cases hprofile : q.profile with
  | horipadS =>
    -- the sink is held for this send already, and the report goes into it
    simp only [proceed, hprofile] at hstep
    obtain ⟨p', result, hperforms, hsettled⟩ := exists_performs_writing time q
      (x := { x with phase := .writing (.ofReport (q.encode x.line)) }) rfl
    exact ⟨p', result, .step hnext (by rw [hstep]; rfl) hperforms, hsettled⟩
  | proController =>
    simp only [proceed, hprofile] at hstep
    refine ⟨_, _, .done hnext hstep, hprofile.symm, rfl, fun hhoripad => ?_,
      .inl ⟨rfl, rfl, rfl⟩⟩
    exact Profile.noConfusion hhoripad

/-- The first step of a send that nobody stands in the way of is the beginning of its wait. -/
theorem asking_step (now : Nat) (hphase : x.phase = .asking) (hclear : p.IsClear) :
    ∃ q : Pad, x.step now false p =
        x.proceed now q (.begin now false (p.pacer.deadline? x.notBefore)) ∧
      q.profile = p.profile ∧ q.pacer = p.pacer ∧ q.sink = p.sink := by
  cases hprofile : p.profile with
  | horipadS =>
    refine ⟨{ p with sinkHeld := true }, ?_, hprofile, rfl, rfl⟩
    simp [step, hphase, hprofile, hclear hprofile]
  | proController => exact ⟨p, by simp [step, hphase, hprofile], hprofile, rfl, rfl⟩

/-- **A send that is alone takes effect as soon as the pad and its caller allow it**, or is refused
then. -/
theorem exists_performs (hphase : x.phase = .asking) (hclear : p.IsClear)
    (htime : Wait.endTime now (p.pacer.deadline? x.notBefore) = time) :
    ∃ p' result, x.Performs now p time p' result ∧
      Settled (p.profile.verdict p.sink.outcomes) p time p' result := by
  have hnext : x.nextTime now = now := by simp [nextTime, deadline?, hphase]
  obtain ⟨q, hstep, hprofile, hpacer, hsink⟩ := asking_step now hphase hclear
  have hsettled {p' : Pad} {result : Except RunError Nat}
      (h : Settled (q.profile.verdict q.sink.outcomes) q time p' result) :
      Settled (p.profile.verdict p.sink.outcomes) p time p' result := by
    rw [hprofile, hsink] at h
    exact h.trans hprofile (congrArg _ hpacer)
  rcases Wait.begin_cases now (p.pacer.deadline? x.notBefore) with
    ⟨hover, hend⟩ | ⟨deadline, hsleeping, hle, hend⟩
  · obtain rfl : now = time := hend.symm.trans htime
    rw [hover] at hstep
    obtain ⟨p', result, hperforms, hq⟩ := exists_performs_proceed hnext hstep
    exact ⟨p', result, hperforms, hsettled hq⟩
  · obtain rfl : deadline = time := hend.symm.trans htime
    rw [hsleeping] at hstep
    -- it sleeps, and its next step is at the deadline
    have hwakes : nextTime { x with phase := .pacing deadline } now = deadline :=
      Wait.endTime_of_le hle
    obtain ⟨p', result, hperforms, hq⟩ :=
      exists_performs_proceed hwakes (p := q) (q := q) (by simp [step, Wait.look_self])
    exact ⟨p', result, .step hnext (by rw [hstep]; rfl) hperforms, hsettled hq⟩

end Send

/-! ### An action that is alone -/

namespace Action

/-- The time of the next step of an action that is alone. -/
def nextTime (a : Action) (now : Nat) : Nat := Wait.endTime now a.deadline?

/-- The steps of an action that is alone and not cancelled, from `now` on until it is done: what it
shows, when it is done, the pad then, and what it has come to. -/
inductive Performs : (now : Nat) → Action → Pad → List Execution.Event → (later : Nat) → Pad →
    Except RunError Unit → Prop
  | done {now time : Nat} {a : Action} {p p' : Pad} {r : Except RunError Unit}
      (htime : a.nextTime now = time) (h : a.step time false p = .done p' r) :
      Performs now a p (a.shows time false p).toList time p' r
  | step {now time later : Nat} {a a' : Action} {p p' p'' : Pad} {events : List Execution.Event}
      {r : Except RunError Unit}
      (htime : a.nextTime now = time) (h : (a.step time false p).left? = some (p', a'))
      (hrest : Performs time a' p' events later p'' r) :
      Performs now a p ((a.shows time false p).toList ++ events) later p'' r

/-- What becomes of a timeline that is over at a time, send by send: the sends that the sink does
not refuse happen at their times, and the first one that it refuses ends the action at its time,
with the error of this send. Nothing happens after that. -/
inductive Keeps (profile : Profile) (ended : Nat) : List Outcome → List Execution.Event →
    List Execution.Event → (later : Nat) → Except RunError Unit → Prop
  /-- There is nothing more to send. -/
  | through {outcomes : List Outcome} : Keeps profile ended outcomes [] [] ended (.ok ())
  /-- A send takes effect. -/
  | sent {outcomes rest : List Outcome} {line : Text} {time later : Nat}
      {timeline events : List Execution.Event} {r : Except RunError Unit} :
      profile.verdict outcomes = (none, rest) → Keeps profile ended rest timeline events later r →
      Keeps profile ended outcomes (.sent line time :: timeline) (.sent line time :: events) later r
  /-- A send is refused. -/
  | refused {outcomes rest : List Outcome} {line : Text} {time : Nat}
      {timeline : List Execution.Event} {e : OutputError} :
      profile.verdict outcomes = (some e, rest) →
      Keeps profile ended outcomes (.sent line time :: timeline) [] time (.error (.output e))

variable {now time later : Nat} {a : Action} {p p' : Pad} {events : List Execution.Event}
  {r : Except RunError Unit}

/-- An action that is alone can do one thing only. -/
theorem Performs.unique {events' : List Execution.Event} {later' : Nat} {q : Pad}
    {r' : Except RunError Unit} (h : a.Performs now p events later p' r)
    (h' : a.Performs now p events' later' q r') :
    events' = events ∧ later' = later ∧ q = p' ∧ r' = r := by
  induction h generalizing events' with
  | done htime hstep =>
    obtain rfl := htime
    cases h' with
    | done htime' hstep' =>
      obtain rfl := htime'
      obtain ⟨rfl, rfl⟩ := Turn.done.inj (hstep.symm.trans hstep')
      exact ⟨rfl, rfl, rfl, rfl⟩
    | step htime' hleft' hrest' =>
      obtain rfl := htime'
      simp [hstep, Turn.left?] at hleft'
  | step htime hleft hrest ih =>
    obtain rfl := htime
    cases h' with
    | done htime' hstep' =>
      obtain rfl := htime'
      simp [hstep', Turn.left?] at hleft
    | step htime' hleft' hrest' =>
      obtain rfl := htime'
      obtain ⟨rfl, rfl⟩ := Prod.mk.inj (Option.some.inj (hleft.symm.trans hleft'))
      obtain ⟨rfl, hsame⟩ := ih hrest'
      exact ⟨rfl, hsame⟩

/-- What an action does after a step that has come to this. -/
def Goes (time : Nat) (events : List Execution.Event) (later : Nat) (p' : Pad)
    (r : Except RunError Unit) : Turn Pad Action (Except RunError Unit) → Prop
  | .wait p a _ => a.Performs time p events later p' r
  | .go p a => a.Performs time p events later p' r
  | .done p result => events = [] ∧ later = time ∧ p' = p ∧ r = result

theorem Goes.performs (htime : a.nextTime now = time)
    (h : Goes time events later p' r (a.step time false p)) :
    a.Performs now p ((a.shows time false p).toList ++ events) later p' r := by
  cases hstep : a.step time false p with
  | wait q a' again =>
    rw [hstep] at h
    exact .step htime (by rw [hstep]; rfl) h
  | go q a' =>
    rw [hstep] at h
    exact .step htime (by rw [hstep]; rfl) h
  | done q result =>
    rw [hstep] at h
    obtain ⟨rfl, rfl, rfl, rfl⟩ := h
    rw [List.append_nil]
    exact .done htime hstep

/-- The action makes a send: `stay` is the action with this send, and `next` is the step that
follows its result. -/
structure Makes (stay : Send → Action)
    (next : Pad → Except RunError Nat → Turn Pad Action (Except RunError Unit)) : Prop where
  send : ∀ x, (stay x).send? = some x
  deadline : ∀ x, (stay x).deadline? = x.deadline?
  step : ∀ time x p, (stay x).step time false p = (x.step time false p).within stay next

/-- What a send of a line has shown when it is done. -/
def shown (line : Text) : Except RunError Nat → List Execution.Event
  | .ok time => [.sent line time]
  | .error _ => []

/-- An action that makes a send does what the send does, and goes on from its result. -/
theorem Makes.performs {stay : Send → Action}
    {next : Pad → Except RunError Nat → Turn Pad Action (Except RunError Unit)} {x : Send} {q : Pad}
    {result : Except RunError Nat} (hmakes : Makes stay next) (h : x.Performs now p time q result)
    (hgoes : Goes time events later p' r (next q result)) :
    (stay x).Performs now p (shown x.line result ++ events) later p' r := by
  have hshows (x : Send) (time : Nat) (p : Pad) :
      (stay x).shows time false p = x.shows time false p := by simp [shows, hmakes.send]
  have hnext (x : Send) (now : Nat) : (stay x).nextTime now = x.nextTime now := by
    rw [nextTime, hmakes.deadline, Send.nextTime]
  induction h with
  | @done now time x p q result htime hstep =>
    have hperforms : (stay x).Performs now p (((stay x).shows time false p).toList ++ events)
        later p' r := by
      refine Goes.performs ((hnext x now).trans htime) ?_
      rw [hmakes.step, hstep]
      exact hgoes
    have hshown : ((stay x).shows time false p).toList = shown x.line result := by
      rw [hshows, Send.shows, hstep]
      cases result <;> rfl
    rwa [hshown] at hperforms
  | @step now time _ x x' p q _ result htime hleft _ ih =>
    have hquiet : x.shows time false p = none := by
      rw [Send.shows]
      rcases Turn.eq_of_left hleft with ⟨again, hstep⟩ | hstep
      · rw [hstep]
      · rw [hstep]
    have hrest := ih hgoes
    have hperforms : (stay x).Performs now p
        (((stay x).shows time false p).toList ++ (shown x'.line result ++ events)) later p' r := by
      refine .step ((hnext x now).trans htime) ?_ hrest
      rw [hmakes.step]
      rcases Turn.eq_of_left hleft with ⟨again, hstep⟩ | hstep
      · rw [hstep]
        rfl
      · rw [hstep]
        rfl
    rwa [hshows, hquiet, Send.line_of_left hleft] at hperforms

/-- What follows the send of an element. -/
def afterSending (a : Action) (hold : Nat) (p : Pad) :
    Except RunError Nat → Turn Pad Action (Except RunError Unit)
  | .ok sentAt => .go p { a with releaseAt := some (sentAt + hold), phase := .choosing }
  | .error e => .done p (.error e)

theorem makes_sending (a : Action) (hold : Nat) :
    Makes (fun x => { a with phase := .sending x hold }) (a.afterSending hold) where
  send _ := rfl
  deadline _ := rfl
  step time x p := by
    simp only [step]
    cases x.step time false p with
    | wait q x' again => rfl
    | go q x' => rfl
    | done q result => cases result <;> rfl

theorem makes_closing (a : Action) :
    Makes (fun x => { a with phase := .closing x }) fun p result => .done p (finish result) :=
  ⟨fun _ => rfl, fun _ => rfl, fun _ _ _ => rfl⟩

variable {steps : List ChainElement} {releaseAt : Option Nat} {held : Bool}

/-- At the end of a chain that keeps what is held, the hold is waited for. -/
theorem performs_holding (now : Nat) (releaseAt : Option Nat) (p : Pad) :
    Performs now ⟨[], releaseAt, true, .choosing⟩ p [] (Wait.endTime now releaseAt) p (.ok ()) := by
  have hnext : nextTime ⟨[], releaseAt, true, .choosing⟩ now = now := Wait.endTime_none now
  rcases Wait.begin_cases now releaseAt with ⟨hover, hend⟩ | ⟨deadline, hsleeping, hle, hend⟩
  · rw [hend]
    exact .done hnext (by simp [step, choose, hover])
  · rw [hend]
    -- it sleeps, and its next step is at the deadline
    have hholding :
        Performs now ⟨[], releaseAt, true, .holding deadline⟩ p [] deadline p (.ok ()) :=
      .done (Wait.endTime_of_le hle) (by simp [step, Wait.look_self])
    exact .step hnext (by simp [step, choose, hsleeping, Turn.left?]) hholding

/-- At the end of any other chain, everything is let go. -/
theorem exists_performs_closing (hclear : p.IsClear)
    (hdue : Wait.endTime now (p.pacer.deadline? releaseAt) = time) :
    ∃ events p' r, Performs now ⟨[], releaseAt, false, .choosing⟩ p events time p' r ∧
      Keeps p.profile time p.sink.outcomes [.sent [] time] events time r := by
  have hnext : nextTime ⟨[], releaseAt, false, .choosing⟩ now = now := Wait.endTime_none now
  obtain ⟨p', result, hperforms, hsettled⟩ :=
    Send.exists_performs (x := .ofLine [] releaseAt) rfl hclear hdue
  have hends : Goes time [] time p' (finish result) (.done p' (finish result)) :=
    ⟨rfl, rfl, rfl, rfl⟩
  have hsends := (makes_closing ⟨[], releaseAt, false, .choosing⟩).performs hperforms hends
  refine ⟨_, p', finish result, .step hnext rfl hsends, ?_⟩
  rcases hsettled.result with ⟨hverdict, rfl, -⟩ | ⟨e, hverdict, rfl⟩
  · exact .sent hverdict .through
  · exact .refused hverdict

/-- When the hold of an element is over, if elements that keep what is held come after it. -/
def prolonged (releaseAt : Option Nat) (more : Nat) : Option Nat := releaseAt.map (· + more)

@[simp] theorem prolonged_zero (releaseAt : Option Nat) : prolonged releaseAt 0 = releaseAt := by
  simp [prolonged]

@[simp] theorem prolonged_none (more : Nat) : prolonged none more = none := rfl

theorem prolonged_prolonged (releaseAt : Option Nat) (more further : Nat) :
    prolonged (prolonged releaseAt more) further = prolonged releaseAt (more + further) := by
  simp [prolonged, Function.comp_def, Nat.add_assoc]

theorem prolonged_some (time hold more : Nat) :
    prolonged (some (time + hold)) more = some (time + (hold + more)) := by
  simp [prolonged, Nat.add_assoc]

/-- The turn to an element that is not sent. -/
theorem step_of_silent {s : ChainElement} {rest : List ChainElement}
    (hsilent : s.isSilent p.keepsHeld = true) :
    step now false ⟨s :: rest, releaseAt, held, .choosing⟩ p =
      .go p ⟨rest, prolonged releaseAt (s.hold?.getD 0), true, .choosing⟩ := by
  have hkeeps : (p.keepsHeld && decide (s.line = ChainElement.holdLine)) = true := hsilent
  simp only [step, choose, hkeeps, if_true]
  cases releaseAt with
  | none => rfl
  | some t => cases s.hold? <;> rfl

/-- The turn to an element that is sent. -/
theorem step_of_loud {s : ChainElement} {rest : List ChainElement}
    (hloud : s.isSilent p.keepsHeld = false) :
    step now false ⟨s :: rest, releaseAt, held, .choosing⟩ p =
      .go p ⟨rest, releaseAt, false, .sending (.ofLine s.line releaseAt) s.hold⟩ := by
  have hkeeps : (p.keepsHeld && decide (s.line = ChainElement.holdLine)) = false := hloud
  simp only [step, choose, hkeeps, Bool.false_eq_true, if_false]

/-- **An action that is alone goes by its timeline**: the sends that are still to come, from the
time on at which the next one may be made. -/
theorem exists_performs (now : Nat) (steps : List ChainElement) (releaseAt : Option Nat)
    (held : Bool) {profile : Profile} {keepsHeld : Bool} {interval due idle : Nat}
    (hprofile : p.profile = profile) (hkeeps : p.keepsHeld = keepsHeld)
    (hinterval : p.pacer.interval = interval) (hclear : p.IsClear)
    (hidle : Wait.endTime now (prolonged releaseAt (Chain.lingering keepsHeld steps)) = idle)
    (hdue : Wait.endTime now
      (p.pacer.deadline? (prolonged releaseAt (Chain.lingering keepsHeld steps))) = due) :
    ∃ events later p' r, Performs now ⟨steps, releaseAt, held, .choosing⟩ p events later p' r ∧
      Keeps profile
        (Chain.finish interval due
          (Chain.sendings keepsHeld steps ++ Chain.closing keepsHeld held steps) idle)
        p.sink.outcomes
        (Chain.timed interval due
          (Chain.sendings keepsHeld steps ++ Chain.closing keepsHeld held steps))
        events later r := by
  -- on the elements that are still to come
  induction steps generalizing now releaseAt held p due idle with
  | nil =>
    rw [Chain.lingering, prolonged_zero] at hidle hdue
    cases held with
    | true =>
      have hholding := performs_holding now releaseAt p
      rw [hidle] at hholding
      exact ⟨[], idle, p, .ok (), hholding, .through⟩
    | false =>
      obtain ⟨events, p', r, hperforms, hkept⟩ := exists_performs_closing hclear hdue
      rw [hprofile] at hkept
      exact ⟨events, due, p', r, hperforms, hkept⟩
  | cons s rest ih =>
    have hnext : nextTime ⟨s :: rest, releaseAt, held, .choosing⟩ now = now := Wait.endTime_none now
    rw [Chain.closing_cons]
    cases hsilent : s.isSilent keepsHeld with
    | true =>
      rw [Chain.lingering_of_silent hsilent, ← prolonged_prolonged] at hidle hdue
      obtain ⟨events, later, p', r, hperforms, hkept⟩ :=
        ih now _ true hprofile hkeeps hinterval hclear hidle hdue
      rw [Chain.sendings_of_silent hsilent]
      refine ⟨events, later, p', r, .step hnext ?_ hperforms, hkept⟩
      rw [step_of_silent (hkeeps ▸ hsilent)]
      rfl
    | false =>
      rw [Chain.lingering_of_loud hsilent, prolonged_zero] at hdue
      rw [Chain.sendings_of_loud hsilent]
      have hchoose : (step now false ⟨s :: rest, releaseAt, held, .choosing⟩ p).left? =
          some (p, ⟨rest, releaseAt, false, .sending (.ofLine s.line releaseAt) s.hold⟩) := by
        rw [step_of_loud (hkeeps ▸ hsilent)]
        rfl
      have hmakes := makes_sending ⟨rest, releaseAt, false, .choosing⟩ s.hold
      obtain ⟨p', result, hperforms, hsettled⟩ :=
        Send.exists_performs (x := .ofLine s.line releaseAt) rfl hclear hdue
      have hprofile' : p'.profile = profile := hsettled.profile.trans hprofile
      rcases hsettled.result with ⟨hverdict, rfl, hlast⟩ | ⟨e, hverdict, rfl⟩
      · have hkeeps' : p'.keepsHeld = keepsHeld := by
          rw [← hkeeps, Pad.keepsHeld, Pad.keepsHeld, hsettled.profile]
        have hinterval' : p'.pacer.interval = interval := hsettled.interval.trans hinterval
        have hidle' : Wait.endTime due
            (prolonged (some (due + s.hold)) (Chain.lingering keepsHeld rest)) =
              due + (s.hold + Chain.lingering keepsHeld rest) := by
          rw [prolonged_some, Wait.endTime_of_le (Nat.le_add_right _ _)]
        have hdue' : Wait.endTime due (p'.pacer.deadline?
            (prolonged (some (due + s.hold)) (Chain.lingering keepsHeld rest))) =
              due + max (s.hold + Chain.lingering keepsHeld rest) interval := by
          rw [prolonged_some, Pacer.endTime_after hlast, hinterval']
        obtain ⟨events, later, p'', r, hrest, hkept⟩ := ih due (some (due + s.hold)) false
          hprofile' hkeeps' hinterval' hsettled.clear hidle' hdue'
        exact ⟨_, later, p'', r, .step hnext hchoose (hmakes.performs hperforms hrest),
          .sent (hprofile ▸ hverdict) hkept⟩
      · have hends : Goes due [] due p' (.error (.output e))
            (.done p' (.error (.output e))) := ⟨rfl, rfl, rfl, rfl⟩
        refine ⟨[], due, p', .error (.output e), .step hnext hchoose ?_, ?_⟩
        · exact hmakes.performs hperforms hends
        · exact .refused (hprofile ▸ hverdict)

/-- **A line that is played alone keeps its timeline.** It is played to its end, or up to the first
send that is refused, whose error it fails with. -/
theorem keeps_timeline (line : Text) (now : Nat) (hclear : p.IsClear) :
    (∃ events later p' r, (ofLine line).Performs now p events later p' r) ∧
      ∀ events later p' r, (ofLine line).Performs now p events later p' r →
        Keeps p.profile
          (Chain.finish p.pacer.interval (p.pacer.firstTime now)
            (Chain.plan p.keepsHeld (Chain.ofLine line)) now)
          p.sink.outcomes
          (Chain.timed p.pacer.interval (p.pacer.firstTime now)
            (Chain.plan p.keepsHeld (Chain.ofLine line)))
          events later r := by
  obtain ⟨events, later, p', r, hperforms, hkept⟩ :=
    exists_performs now (Chain.ofLine line) none false rfl rfl rfl hclear rfl rfl
  rw [prolonged_none, Wait.endTime_none, p.pacer.endTime_deadline] at hkept
  refine ⟨⟨events, later, p', r, hperforms⟩, fun events' later' q r' hperforms' => ?_⟩
  obtain ⟨rfl, rfl, -, rfl⟩ := hperforms.unique hperforms'
  exact hkept

/-- Where no report is needed, no send is refused. -/
theorem Keeps.all_of_proController {ended : Nat} {outcomes : List Outcome}
    {timeline : List Execution.Event}
    (h : Keeps .proController ended outcomes timeline events later r) :
    events = timeline ∧ later = ended ∧ r = .ok () := by
  induction h with
  | through => exact ⟨rfl, rfl, rfl⟩
  | sent _ _ ih => exact ⟨congrArg _ ih.1, ih.2⟩
  | refused hverdict => cases hverdict

theorem keeps_timeline_holding :
    (Pad.switchedOn .proController .standard 0).IsClear ∧
      ∃ p', (ofLine ['A', '-', '>', '~', '-', '>', 'B']).Performs 0
        (.switchedOn .proController .standard 0)
        [.sent ['A'] 0, .sent ['B'] 100000, .sent [] 200000] 200000 p' (.ok ()) := by
  have hclear : (Pad.switchedOn .proController .standard 0).IsClear := fun _ => rfl
  obtain ⟨⟨events, later, p', r, hperforms⟩, hkeeps⟩ :=
    keeps_timeline ['A', '-', '>', '~', '-', '>', 'B'] 0 hclear
  obtain ⟨rfl, rfl, rfl⟩ := (hkeeps events later p' r hperforms).all_of_proController
  exact ⟨hclear, p', hperforms⟩

end Action

end PadScript
