import Mathlib.Logic.Function.Basic
import PadScript.Proofs.Joystick.Jobs

/-!
# Many callers of one joystick

Any number of tasks call one pad, each for one thing at a time, and get on in any order. A call can
be cancelled, and it can be given up between two steps. Meanwhile the client sends payloads, time
goes by, and the sink takes reports or refuses them.

* `Callers.Spaced` : the reports so far are kept apart, and the ones that are on their way will be.
* `Callers.spaced_step` : **whatever happens, this stays so.** The deadline of a send is found,
  slept for and recorded at three times, and the sink is held from the first to the last.
* `Callers.sent_apart` : **any two reports that the sink takes are the least interval apart.**
-/

namespace PadScript

/-! ### What happens to a station from outside -/

/-- What happens to a station, whatever its tasks do. -/
inductive Happening where
  /-- The client sends a payload. -/
  | payload (text : Text)
  /-- Time goes by. -/
  | time (later : Nat)
  /-- It is settled what becomes of the next attempts of the sink. -/
  | outcomes (next : List Outcome)

/-- What a payload can do to the live line. -/
inductive LiveSlot.Served (now : Nat) (slot : LiveSlot) : LiveSlot → Prop
  /-- Nothing. -/
  | keep : Served now slot slot
  /-- It begins realtime mode. -/
  | start : Served now slot (slot.start now)
  /-- It ends realtime mode. -/
  | stop : Served now slot slot.stop
  /-- It ends realtime mode, and nothing is held any more. -/
  | clear : Served now slot (slot.stop.set [] now)
  /-- It sets the line. -/
  | set (line : Text) : slot.active = true → Served now slot (slot.set line now)

namespace Station

variable (setup : Setup)

/-- The station after something has happened. Time does not go back. -/
def undergo (s : Station) : Happening → Station
  | .payload text => (s.handle setup text).2
  | .time later => { s with now := max s.now later }
  | .outcomes next => { s with pad := { s.pad with sink := { s.pad.sink with outcomes := next } } }

theorem request_pad (r : PlayRequest) (afresh : Bool) (s : Station) :
    (s.request setup r afresh).2.now = s.now ∧ (s.request setup r afresh).2.pad = s.pad := by
  obtain ⟨queue, heq⟩ := request_eq setup r afresh s
  rw [heq]
  exact ⟨rfl, rfl⟩

/-- A payload changes at most the live line of a pad. -/
theorem handle_slot (text : Text) (s : Station) :
    (s.handle setup text).2.now = s.now ∧ ∃ slot, s.pad.slot.Served s.now slot ∧
      (s.handle setup text).2.pad = { s.pad with slot := slot } := by
  have hrequest : ∀ r afresh, (s.request setup r afresh).2.now = s.now ∧
      ∃ slot, s.pad.slot.Served s.now slot ∧
        (s.request setup r afresh).2.pad = { s.pad with slot := slot } := by
    intro r afresh
    obtain ⟨hnow, hpad⟩ := request_pad setup r afresh s
    exact ⟨hnow, s.pad.slot, .keep, hpad⟩
  unfold handle
  split
  next command _ =>
    cases command with
    | start r => exact hrequest r false
    | restart r => exact hrequest r true
    | stop => exact ⟨rfl, s.pad.slot, .keep, rfl⟩
    | realtimeStart => exact ⟨rfl, _, .start, rfl⟩
    | realtimeStop =>
      refine ⟨rfl, ?_⟩
      simp only [apply, Pad.stopRealtime]
      split
      · exact ⟨_, .clear, rfl⟩
      · exact ⟨_, .stop, rfl⟩
    | realtimeAction line =>
      simp only [apply, Pad.setRealtime]
      split
      next hset =>
        split at hset
        next hactive =>
          obtain rfl := Except.ok.inj hset
          exact ⟨rfl, _, .set line hactive, rfl⟩
        · cases hset
      next => exact ⟨rfl, s.pad.slot, .keep, rfl⟩
  · exact ⟨rfl, s.pad.slot, .keep, rfl⟩

/-- Nothing that happens touches the pacer, the reports that were taken, or the hold of the sink. -/
theorem undergo_eq (s : Station) (happening : Happening) :
    s.now ≤ (s.undergo setup happening).now ∧ ∃ slot next, s.pad.slot.Served s.now slot ∧
      (s.undergo setup happening).pad =
        { s.pad with slot := slot, sink := { s.pad.sink with outcomes := next } } := by
  cases happening with
  | payload text =>
    obtain ⟨hnow, slot, hserved, hpad⟩ := handle_slot setup text s
    exact ⟨Nat.le_of_eq hnow.symm, slot, _, hserved, hpad⟩
  | time later => exact ⟨Nat.le_max_left .., _, _, .keep, rfl⟩
  | outcomes next => exact ⟨Nat.le_refl _, _, next, .keep, rfl⟩

end Station

/-! ### The callers -/

/-- What a task can call a pad for. -/
inductive Call where
  /-- A line, not before a time. -/
  | send (line : Text) (notBefore : Option Nat)
  /-- A line that is held for some time. -/
  | keyPress (line : Text) (hold : Nat)
  /-- To let everything go. -/
  | release
  /-- A line of a script. One that is `never` cancelled plays to its end. -/
  | action (line : Text) (never : Bool)
  /-- A session of realtime mode. -/
  | session

/-- The job that a call begins. -/
def Call.job : Call → Job
  | send line notBefore => .send (.ofLine line notBefore)
  | keyPress line hold => .keyPress (.ofLine line hold)
  | release => .release (.ofLine [] none)
  | action line never => .action (.ofLine line) never
  | session => .session .waiting

theorem Call.phase_eq (call : Call) {x : Send} (h : call.job.send? = some x) :
    x.phase = .asking := by
  cases call with
  | send line notBefore => exact Option.some.inj h ▸ rfl
  | keyPress line hold => exact Option.some.inj h ▸ rfl
  | release => exact Option.some.inj h ▸ rfl
  | action line never => simp [job, Job.send?, Action.send?, Action.ofLine] at h
  | session => simp [job, Job.send?, Realtime.send?] at h

/-- A pad with its station, and the tasks that call it to send lines, press keys or play runs. -/
structure Callers where
  /-- The station. -/
  station : Station
  /-- What each task waits for, if it waits. -/
  jobs : Nat → Option Job

/-- What can come next. -/
inductive Callers.Move where
  /-- A task that waits for nothing calls. -/
  | call (i : Nat) (call : Call)
  /-- A task makes a step. Its call has been cancelled or not. -/
  | turn (i : Nat) (isCancelled : Bool)
  /-- A task gives its call up. -/
  | drop (i : Nat)
  /-- Something happens to the station. -/
  | happen (happening : Happening)

namespace Callers

variable (setup : Setup)

/-- The pad of a joystick when a job is given up: the sink is let go if it was held for it. -/
def dropped (j : Job) (p : Pad) : Pad :=
  match p.profile, j.send? with
  | .horipadS, some x => if x.phase = .asking then p else Send.letGo p
  | _, _ => p

section Dropped

variable (j : Job) (p : Pad)

theorem dropped_eq : ∃ held, dropped j p = { p with sinkHeld := held } := by
  unfold dropped
  split
  · split
    · exact ⟨p.sinkHeld, rfl⟩
    · exact ⟨false, rfl⟩
  · exact ⟨p.sinkHeld, rfl⟩

theorem profile_dropped : (dropped j p).profile = p.profile := by
  obtain ⟨held, h⟩ := dropped_eq j p
  rw [h]

theorem pacer_dropped : (dropped j p).pacer = p.pacer := by
  obtain ⟨held, h⟩ := dropped_eq j p
  rw [h]

theorem sent_dropped : (dropped j p).sink.sent = p.sink.sent := by
  obtain ⟨held, h⟩ := dropped_eq j p
  rw [h]

variable {j p}

theorem sinkHeld_dropped (h : ¬ Send.Holds j.send?) : (dropped j p).sinkHeld = p.sinkHeld := by
  unfold dropped
  split
  next x _ hx =>
    rw [if_pos (by_contra fun hphase => h ⟨x, hx, hphase⟩)]
  · rfl

end Dropped

/-- What is left after a move. -/
def step (v : Callers) : Move → Callers
  | .call i call =>
    match v.jobs i with
    | none => { v with jobs := Function.update v.jobs i (some call.job) }
    | some _ => v
  | .turn i isCancelled =>
    match v.jobs i with
    | none => v
    | some j =>
      let turn := j.step isCancelled v.station
      ⟨turn.world, Function.update v.jobs i turn.state?⟩
  | .drop i =>
    match v.jobs i with
    | none => v
    | some j =>
      ⟨{ v.station with pad := dropped j v.station.pad }, Function.update v.jobs i none⟩
  | .happen happening => { v with station := v.station.undergo setup happening }

/-- What is left after some moves. -/
def play (v : Callers) (moves : List Move) : Callers := moves.foldl (step setup) v

/-- A pad that is switched on, and that nobody has called. -/
def begin (clock : Clock) (now : Nat) : Callers := ⟨setup.station clock now, fun _ => none⟩

/-- The send that a task makes. -/
def send? (v : Callers) (i : Nat) : Option Send := (v.jobs i).bind Job.send?

theorem send_update_self (s : Station) (jobs : Nat → Option Job) (i : Nat) (j? : Option Job) :
    send? ⟨s, Function.update jobs i j?⟩ i = j?.bind Job.send? := by
  simp only [send?, Function.update_self]

theorem send_update_of_ne (v : Callers) (s : Station) {i k : Nat} (h : k ≠ i) (j? : Option Job) :
    send? ⟨s, Function.update v.jobs i j?⟩ k = v.send? k := by
  simp only [send?, Function.update_of_ne h]

/-- When the sink took reports. -/
def times (v : Callers) : List Nat := v.station.pad.sink.sent.map Prod.fst

/-- The reports so far are kept apart, and the ones that are on their way will be. -/
structure Spaced (interval : Nat) (v : Callers) : Prop where
  /-- The pad is a joystick. -/
  profile : v.station.pad.profile = .horipadS
  /-- Its pacer keeps sends this far apart. -/
  interval_eq : v.station.pad.pacer.interval = interval
  /-- At most one task holds the sink. -/
  sole : ∀ i k, Send.Holds (v.send? i) → Send.Holds (v.send? k) → i = k
  /-- The sink is known to be held then. -/
  held : ∀ i, Send.Holds (v.send? i) → v.station.pad.sinkHeld = true
  /-- The reports so far are kept apart. -/
  spaced : v.times.Pairwise fun t u => t + interval ≤ u
  /-- They were taken in the past. -/
  past : ∀ t ∈ v.times, t ≤ v.station.now
  /-- The pacer has not forgotten them. -/
  kept : ∀ t ∈ v.times, ∃ last, v.station.pad.pacer.last? = some last ∧ t ≤ last
  /-- A send that holds the sink waits long enough. -/
  awaits : ∀ t ∈ v.times, ∀ i x, v.send? i = some x → x.Awaits (t + interval) v.station.now

variable {setup} {interval : Nat} {v : Callers}

/-- The station goes on, and the sends do not get on. -/
theorem Spaced.elsewhere {v' : Callers} (h : v.Spaced interval)
    (hprofile : v'.station.pad.profile = v.station.pad.profile)
    (hpacer : v'.station.pad.pacer = v.station.pad.pacer)
    (hsent : v'.station.pad.sink.sent = v.station.pad.sink.sent)
    (hnow : v.station.now ≤ v'.station.now)
    (hholds : ∀ i, Send.Holds (v'.send? i) → v'.send? i = v.send? i)
    (hheld : ∀ i, Send.Holds (v'.send? i) → v.station.pad.sinkHeld = true →
      v'.station.pad.sinkHeld = true) : v'.Spaced interval := by
  have htimes : v'.times = v.times := congrArg (List.map Prod.fst) hsent
  have hsame : ∀ i, Send.Holds (v'.send? i) → Send.Holds (v.send? i) :=
    fun i hi => hholds i hi ▸ hi
  refine ⟨hprofile.trans h.profile, by rw [hpacer]; exact h.interval_eq,
    fun i k hi hk => h.sole i k (hsame i hi) (hsame k hk),
    fun i hi => hheld i hi (h.held i (hsame i hi)), by rw [htimes]; exact h.spaced,
    by rw [htimes]; exact fun t ht => Nat.le_trans (h.past t ht) hnow,
    by rw [htimes, hpacer]; exact h.kept, fun t ht i x hx => ?_⟩
  rw [htimes] at ht
  by_cases hphase : x.phase = .asking
  · simp [Send.Awaits, hphase]
  · rw [hholds i ⟨x, hx, hphase⟩] at hx
    exact (h.awaits t ht i x hx).of_le hnow

section Turn

variable {i : Nat} {x'? : Option Send} {s : Station} {jobs : Nat → Option Job}
  (hdeals : v.station.pad.Deals v.station.now s.pad (v.send? i) x'?)
  (hself : send? ⟨s, jobs⟩ i = x'?) (hothers : ∀ k, k ≠ i → send? ⟨s, jobs⟩ k = v.send? k)

include hdeals hself hothers

/-- At most one task holds the sink after a step of a task that deals with the pad. -/
theorem Spaced.sole_of_deals (h : v.Spaced interval) (k l : Nat)
    (hk : Send.Holds (send? ⟨s, jobs⟩ k)) (hl : Send.Holds (send? ⟨s, jobs⟩ l)) : k = l := by
  have hother : ∀ l, l ≠ i → Send.Holds (send? ⟨s, jobs⟩ l) → ¬ Send.Holds x'? := by
    intro l hne hl hself'
    rw [hothers l hne] at hl
    have hmine : Send.Holds (v.send? i) := by
      -- otherwise it would take the sink now, which is not free
      by_contra hnot
      have hfree := hdeals.free hself' hnot
      simp [h.held l hl] at hfree
    exact hne (h.sole l i hl hmine)
  by_cases hki : k = i
  · by_cases hli : l = i
    · rw [hki, hli]
    · subst hki
      exact absurd (hself ▸ hk) (hother l hli hl)
  · by_cases hli : l = i
    · subst hli
      exact absurd (hself ▸ hl) (hother k hki hk)
    · rw [hothers k hki] at hk
      rw [hothers l hli] at hl
      exact h.sole k l hk hl

/-- The sink of a task that holds it is held after a step of a task that deals with the pad. -/
theorem Spaced.held_of_deals (h : v.Spaced interval) (k : Nat)
    (hk : Send.Holds (send? ⟨s, jobs⟩ k)) : s.pad.sinkHeld = true := by
  by_cases hki : k = i
  · subst hki
    exact hdeals.held (h.held k) (hself ▸ hk)
  · rw [hothers k hki] at hk
    exact hdeals.kept (h.held k hk) fun hi => hki (h.sole k i hk hi)

/-- A step that no report is taken in. -/
theorem Spaced.of_deals_quiet (h : v.Spaced interval) (hnow : s.now = v.station.now)
    (hpacer : s.pad.pacer = v.station.pad.pacer)
    (hsent : s.pad.sink.sent = v.station.pad.sink.sent) : Spaced interval ⟨s, jobs⟩ := by
  have htimes : times ⟨s, jobs⟩ = v.times := congrArg (List.map Prod.fst) hsent
  refine ⟨hdeals.profile.trans h.profile, hdeals.interval.trans h.interval_eq,
    h.sole_of_deals hdeals hself hothers, h.held_of_deals hdeals hself hothers,
    by rw [htimes]; exact h.spaced, by rw [htimes, hnow]; exact h.past,
    by rw [htimes, hpacer]; exact h.kept, fun t ht k x hx => ?_⟩
  rw [htimes] at ht
  rw [hnow]
  by_cases hki : k = i
  · subst hki
    obtain ⟨last, hlast, htlast⟩ := h.kept t ht
    have hawaits := h.awaits t ht k
    rw [← h.interval_eq] at hawaits ⊢
    exact hdeals.awaits hlast htlast hawaits x (hself ▸ hx)
  · exact h.awaits t ht k x ((hothers k hki).symm.trans hx)

/-- A step that a report is taken in: it was its time. -/
theorem Spaced.of_deals_sent (h : v.Spaced interval) (hnow : s.now = v.station.now)
    (hwriting : ∃ x w, v.send? i = some x ∧ x.phase = .writing w) (hover : ¬ Send.Holds x'?)
    (hpacer : s.pad.pacer = v.station.pad.pacer.record v.station.now) {report : List UInt8}
    (hsent : s.pad.sink.sent = v.station.pad.sink.sent ++ [(v.station.now, report)]) :
    Spaced interval ⟨s, jobs⟩ := by
  obtain ⟨x, w, hx, hphase⟩ := hwriting
  have hholds : Send.Holds (v.send? i) := ⟨x, hx, by simp [hphase]⟩
  have htimes : times ⟨s, jobs⟩ = v.times ++ [v.station.now] := by
    rw [times, hsent, List.map_append]
    rfl
  have hdue : ∀ t ∈ v.times, t + interval ≤ v.station.now := by
    -- a send that writes has waited already
    intro t ht
    have hawaits := h.awaits t ht i x hx
    rwa [Send.Awaits, hphase] at hawaits
  have hpast : ∀ t ∈ v.times ++ [v.station.now], t ≤ v.station.now := by
    intro t ht
    rcases List.mem_append.1 ht with ht | ht
    · exact h.past t ht
    · exact Nat.le_of_eq (List.mem_singleton.1 ht)
  refine ⟨hdeals.profile.trans h.profile, hdeals.interval.trans h.interval_eq,
    h.sole_of_deals hdeals hself hothers, h.held_of_deals hdeals hself hothers, ?_,
    by rw [htimes, hnow]; exact hpast, ?_, fun t _ k y hy => ?_⟩
  · rw [htimes, List.pairwise_append]
    refine ⟨h.spaced, List.pairwise_singleton .., fun t ht u hu => ?_⟩
    obtain rfl := List.mem_singleton.1 hu
    exact hdue t ht
  · rw [htimes, hpacer]
    exact fun t ht => ⟨v.station.now, rfl, hpast t ht⟩
  · -- nobody holds the sink any more, so every send is at its beginning
    suffices hasking : y.phase = .asking by simp [Send.Awaits, hasking]
    by_contra hne
    by_cases hki : k = i
    · subst hki
      exact hover ⟨y, hself ▸ hy, hne⟩
    · exact hki (h.sole k i ⟨y, (hothers k hki).symm.trans hy, hne⟩ hholds)

end Turn

section Job

variable {i : Nat} {j : Job} (hjob : v.jobs i = some j)

include hjob

theorem send_eq : v.send? i = j.send? := by rw [send?, hjob, Option.bind_some]

/-- A task makes a step. -/
theorem Spaced.turn (h : v.Spaced interval) (isCancelled : Bool) :
    Spaced interval ⟨(j.step isCancelled v.station).world,
      Function.update v.jobs i (j.step isCancelled v.station).state?⟩ := by
  have hdeals := j.deals_step isCancelled h.profile
  rw [← send_eq hjob] at hdeals
  have hself := send_update_self (j.step isCancelled v.station).world v.jobs i
    (j.step isCancelled v.station).state?
  have hothers := fun k (hki : k ≠ i) =>
    send_update_of_ne v (j.step isCancelled v.station).world hki
      (j.step isCancelled v.station).state?
  have hnow : (j.step isCancelled v.station).world.now = v.station.now :=
    congrArg Prod.fst (j.outside_step isCancelled)
  rcases hdeals.sent with ⟨hpacer, hsent⟩ | ⟨hwriting, hover, hpacer, report, hsent⟩
  · exact h.of_deals_quiet hdeals hself hothers hnow hpacer hsent
  · exact h.of_deals_sent hdeals hself hothers hnow hwriting hover hpacer hsent

/-- A task gives its call up. If it held the sink, nobody holds it now. -/
theorem Spaced.drop (h : v.Spaced interval) :
    Spaced interval ⟨{ v.station with pad := dropped j v.station.pad },
      Function.update v.jobs i none⟩ := by
  have hother : ∀ k, Send.Holds (send? ⟨{ v.station with pad := dropped j v.station.pad },
      Function.update v.jobs i none⟩ k) → k ≠ i := by
    rintro k hk rfl
    rw [send_update_self] at hk
    exact Send.not_holds_none hk
  refine h.elsewhere (profile_dropped j _) (pacer_dropped j _) (sent_dropped j _) (Nat.le_refl _)
    (fun k hk => send_update_of_ne v _ (hother k hk) none) fun k hk hheld => ?_
  -- another task holds the sink, so this one does not, and leaves it alone
  have hki := hother k hk
  rw [send_update_of_ne v _ hki] at hk
  refine (sinkHeld_dropped fun hholds => hki ?_).trans hheld
  exact h.sole k i hk (send_eq hjob ▸ hholds)

end Job

/-- A task calls the pad. -/
theorem Spaced.call (h : v.Spaced interval) (i : Nat) (call : Call) :
    Spaced interval { v with jobs := Function.update v.jobs i (some call.job) } := by
  refine h.elsewhere rfl rfl rfl (Nat.le_refl _) (fun k hk => ?_) fun _ _ hheld => hheld
  by_cases hki : k = i
  · subst hki
    rw [send_update_self] at hk
    obtain ⟨x, hx, hphase⟩ := hk
    exact absurd (call.phase_eq hx) hphase
  · exact send_update_of_ne v _ hki _

/-- Something happens to the station. -/
theorem Spaced.happen (h : v.Spaced interval) (happening : Happening) :
    Spaced interval { v with station := v.station.undergo setup happening } := by
  obtain ⟨hnow, slot, next, -, hpad⟩ := v.station.undergo_eq setup happening
  exact h.elsewhere (by rw [hpad]) (by rw [hpad]) (by rw [hpad]) hnow (fun _ _ => rfl)
    fun _ _ hheld => by rw [hpad]; exact hheld

/-- **Whatever happens, the reports stay apart.** -/
theorem spaced_step (h : v.Spaced interval) (move : Move) :
    (v.step setup move).Spaced interval := by
  cases move with
  | call i call =>
    simp only [step]
    cases v.jobs i with
    | none => exact h.call i call
    | some j => exact h
  | turn i isCancelled =>
    simp only [step]
    cases hjob : v.jobs i with
    | none => exact h
    | some j => exact h.turn hjob isCancelled
  | drop i =>
    simp only [step]
    cases hjob : v.jobs i with
    | none => exact h
    | some j => exact h.drop hjob
  | happen happening => exact h.happen happening

theorem spaced_begin (hprofile : setup.config.profile = .horipadS) (clock : Clock) (now : Nat) :
    (begin setup clock now).Spaced setup.config.timing.minSendInterval := by
  have hidle : ∀ i, ¬ Send.Holds ((begin setup clock now).send? i) := fun _ => Send.not_holds_none
  have hquiet : (begin setup clock now).times = [] := rfl
  refine ⟨hprofile, rfl, fun i _ hi => absurd hi (hidle i), fun i hi => absurd hi (hidle i), ?_, ?_,
    ?_, ?_⟩
  all_goals simp [hquiet]

theorem spaced_play (h : v.Spaced interval) (moves : List Move) :
    (v.play setup moves).Spaced interval := by
  induction moves generalizing v with
  | nil => exact h
  | cons move rest ih => exact ih (spaced_step h move)

/-- **The sink takes two reports at times that are at least the least interval apart**, whoever
calls a joystick, in whatever order the callers get on, whichever of their calls are cancelled or
given up, and whatever the sink refuses. -/
theorem sent_apart (hprofile : setup.config.profile = .horipadS) (clock : Clock) (now : Nat)
    (moves : List Move) :
    ((begin setup clock now).play setup moves).times.Pairwise fun t u =>
      t + setup.config.timing.minSendInterval ≤ u :=
  (spaced_play (spaced_begin hprofile clock now) moves).spaced

/-- A joystick without macros. -/
def plain : Setup where
  library := .empty
  config := { Config.standard with profile := .horipadS }

/-- A report is taken. A second caller waits with the sink in its hands, gives up, and leaves it to
a third one, whose first attempt would block. -/
def threeCalls : List Move :=
  [.call 0 (.send ['A'] none), .turn 0 false, .turn 0 false, .call 1 (.keyPress ['B'] 100),
    .call 2 .release, .turn 1 false, .turn 2 false, .happen (.time 1000), .drop 1, .turn 2 false,
    .happen (.outcomes [.refused .wouldBlock]), .happen (.time 3000), .turn 2 false, .turn 2 false,
    .turn 2 false]

theorem sent_apart_threeCalls :
    plain.config.profile = .horipadS ∧
      ((begin plain .prompt 0).play plain threeCalls).times = [0, 3000] ∧
      ((begin plain .prompt 0).play plain threeCalls).times.Pairwise fun t u =>
        t + plain.config.timing.minSendInterval ≤ u :=
  ⟨rfl, rfl, sent_apart rfl .prompt 0 threeCalls⟩

end Callers

end PadScript
