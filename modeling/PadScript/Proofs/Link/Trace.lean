import PadScript.Proofs.Link.Lines
import PadScript.Proofs.Pro.Trim
import PadScript.Proofs.Run.Company

/-!
# Traces of the command link

The task of the command link reads one item after another: a byte, or a failure of the receiver.
`CommandLink.Trace` is what it reads up to some moment, while more arrives and the other tasks get
on, and each `CommandLink.Reading` in it says what the item came to.

* `Task.uart_step` : no other task touches the wires of the link, so a trace goes on while other
  tasks get on (`CommandLink.Trace.task_step`).
* `CommandLink.step_of_item` : **a step reads one item**, and what it completes is settled at once.
* `CommandLink.Reading.Follows.carriesOut` : the payload that was handed on was carried out, and
  nothing else was.
* `CommandLink.Trace.received_eq` : **what has arrived is read in order**, and nothing of it twice.
* `CommandLink.Trace.output_eq` : what was written is what was written when items were read.
* `CommandLink.Trace.follows` : **what an item comes to depends on the line that is open.**
* `CommandLink.Trace.exists_end` : everything that has arrived can be read to its end.
-/

namespace PadScript

/-! ### The wires of the link -/

/-- What has arrived on the command link, and what was written to it. -/
def Station.uart (s : Station) : List UartItem × List (Nat × Text) :=
  (s.wires.uartIn, s.wires.uartOut)

section Others

variable {s : Station}

theorem Station.uart_eq_of_outside {s' : Station} (h : s'.outside = s.outside) :
    s'.uart = s.uart :=
  congrArg (fun x => (x.2.2.uartIn, x.2.2.uartOut)) h

theorem Turn.uart_within {σ τ α β : Type} {turn : Turn Station σ α} {stay : σ → τ}
    {next : Station → α → Turn Station τ β} (h : turn.world.uart = s.uart)
    (hnext : ∀ w a, (next w a).world.uart = w.uart) :
    (turn.within stay next).world.uart = s.uart :=
  Turn.world_within (f := Station.uart) h hnext

theorem HostReports.uart_step (t : HostReports) : (t.step s).world.uart = s.uart := by
  cases t with
  | reading =>
    simp only [step]
    split
    · rfl
    · split
      · rfl
      · split
        · rfl
        · split <;> rfl
  | delivering d =>
    exact Turn.uart_within (Station.uart_eq_of_outside (Turn.outside_widen _)) fun _ _ => rfl

theorem PowerUp.uart_step (setup : Setup) : (step setup s).world.uart = s.uart := by
  unfold step
  split
  · rfl
  · split
    · dsimp only
      split
      · split <;> rfl
      · rfl
    · rfl

/-- No other task touches the wires of the link. -/
theorem Task.uart_step (setup : Setup) {t : Task} (h : ∀ r, t ≠ .commands r) :
    (t.step setup s).world.uart = s.uart := by
  cases t with
  | runner r =>
    exact Turn.uart_within (Station.uart_eq_of_outside (r.outside_step setup)) fun _ _ => rfl
  | periodic t =>
    exact Turn.uart_within (Station.uart_eq_of_outside t.outside_step) fun _ _ => rfl
  | realtime r =>
    have hserve : (r.serve s).world.uart = s.uart :=
      Turn.uart_within (Station.uart_eq_of_outside r.outside_step) fun _ _ => rfl
    exact Turn.uart_within hserve fun _ _ => rfl
  | hostReports t => exact Turn.uart_within t.uart_step fun _ _ => rfl
  | commands r => exact absurd rfl (h r)
  | powerUp => exact Turn.uart_within (PowerUp.uart_step setup) fun _ _ => rfl
  | «over» => rfl

end Others

/-- A payload changes at most the pad and the queue. -/
theorem Station.handle_eq (setup : Setup) (payload : Text) (s : Station) :
    ∃ pad queue, (s.handle setup payload).2 = { s with pad := pad, queue := queue } := by
  have hrequest : ∀ r afresh, ∃ pad queue,
      (s.request setup r afresh).2 = { s with pad := pad, queue := queue } := by
    intro r afresh
    obtain ⟨queue, heq⟩ := s.request_eq setup r afresh
    exact ⟨s.pad, queue, heq⟩
  unfold handle
  split
  next command _ =>
    cases command with
    | start r => exact hrequest r false
    | restart r => exact hrequest r true
    | stop => exact ⟨_, _, rfl⟩
    | realtimeStart => exact ⟨_, _, rfl⟩
    | realtimeStop => exact ⟨_, _, rfl⟩
    | realtimeAction line =>
      simp only [apply]
      split <;> exact ⟨_, _, rfl⟩
  next => exact ⟨_, _, rfl⟩

namespace CommandLink

/-! ### One step of the link -/

/-- The payload that is handed on when this is completed: a line that is not blank. -/
def payload? : Option (Except LinkError Text) → Option Text
  | some (.ok line) => if (Text.trim line).isEmpty then none else some line
  | _ => none

theorem payload?_eq_some_iff {completed : Option (Except LinkError Text)} {payload : Text} :
    payload? completed = some payload ↔ completed = some (.ok payload) ∧ ¬payload.IsBlanks := by
  cases completed with
  | none => simp [payload?]
  | some read =>
    cases read with
    | error e => simp [payload?]
    | ok line =>
      simp only [payload?, List.isEmpty_iff, Option.some.injEq, Except.ok.injEq]
      constructor
      · intro h
        split at h
        · cases h
        next htrim =>
          obtain rfl := Option.some.inj h
          exact ⟨rfl, mt Text.trim_eq_nil_iff.2 htrim⟩
      · rintro ⟨rfl, hblank⟩
        rw [if_neg (mt Text.trim_eq_nil_iff.1 hblank)]

/-- What is done about what an item has completed. -/
def settle (setup : Setup) (s : Station) : Option (Except LinkError Text) → Station
  | some read => serve setup read s
  | none => s

/-- The station when one item has been read, and these are left. -/
def leaving (s : Station) (rest : List UartItem) : Station :=
  { s with wires := { s.wires with uartIn := rest } }

variable {setup : Setup} {s s' : Station} {r r' : LineReader}

/-- **A step reads one item.** -/
theorem step_of_item {item : UartItem} {rest : List UartItem}
    (h : s.wires.uartIn = item :: rest) (setup : Setup) (r : LineReader) :
    step setup r s = .go (settle setup (leaving s rest) (r.feed item).2) (r.feed item).1 := by
  rw [step, h]
  cases hfeed : r.feed item with
  | mk r' completed => cases completed <;> simp [hfeed, settle, leaving]

/-- A payload that is handed on is carried out, and the answer is written. -/
theorem serve_of_payload {read : Except LinkError Text} {payload : Text}
    (h : payload? (some read) = some payload) :
    serve setup read s =
      respond (s.handle setup payload).1.message (s.handle setup payload).2 := by
  cases read with
  | error e => cases h
  | ok line =>
    simp only [payload?] at h
    split at h
    · cases h
    next hblank =>
      obtain rfl := Option.some.inj h
      simp [serve, hblank]

/-- A status line is written behind what was written before, or fails and is not. -/
theorem respond_eq (status : String) (s : Station) :
    ∃ faults written, faults ≤ s.wires.uartFaults ∧ respond status s =
      { s with wires := { s.wires with
        uartFaults := faults, uartOut := s.wires.uartOut ++ written } } := by
  unfold respond
  split
  next faults hfaults =>
    exact ⟨faults, [], hfaults ▸ Nat.le_succ faults, by simp⟩
  next hfaults => exact ⟨0, [(s.now, statusLine status)], Nat.zero_le _, by rw [← hfaults]⟩

/-- If no payload is handed on, nothing happens but that a fault is reported. -/
theorem serve_of_no_payload {read : Except LinkError Text} (h : payload? (some read) = none) :
    (serve setup read s).pad = s.pad ∧ (serve setup read s).queue = s.queue := by
  unfold serve
  split
  next => exact ⟨rfl, rfl⟩
  next e _ =>
    obtain ⟨faults, written, -, heq⟩ := respond_eq ("error: " ++ e.message) s
    rw [heq]
    exact ⟨rfl, rfl⟩
  next line =>
    split
    next => exact ⟨rfl, rfl⟩
    next hblank => simp [payload?, hblank] at h

/-- What is settled leaves alone what has arrived, and takes back nothing that was written. -/
theorem settle_wires (setup : Setup) (s : Station) (completed : Option (Except LinkError Text)) :
    ∃ faults written, faults ≤ s.wires.uartFaults ∧ (settle setup s completed).wires =
      { s.wires with uartFaults := faults, uartOut := s.wires.uartOut ++ written } := by
  have hrest : ∃ faults written, faults ≤ s.wires.uartFaults ∧ s.wires =
      { s.wires with uartFaults := faults, uartOut := s.wires.uartOut ++ written } :=
    ⟨s.wires.uartFaults, [], Nat.le_refl _, by simp⟩
  unfold settle
  split
  next read =>
    unfold serve
    split
    next => exact hrest
    next e _ =>
      obtain ⟨faults, written, hle, heq⟩ := respond_eq ("error: " ++ e.message) s
      exact ⟨faults, written, hle, by rw [heq]⟩
    next line =>
      split
      next => exact hrest
      next =>
        obtain ⟨pad, queue, hhandle⟩ := s.handle_eq setup line
        obtain ⟨faults, written, hle, heq⟩ :=
          respond_eq (s.handle setup line).1.message (s.handle setup line).2
        rw [hhandle] at hle heq
        exact ⟨faults, written, hle, by simp only [hhandle, heq]⟩
  next => exact hrest

/-! ### Step after step -/

/-- One item that was read, and what it came to. -/
structure Reading where
  /-- The item. -/
  item : UartItem
  /-- The payload that was handed on, if there was one. -/
  payload : Option Text
  /-- The station when the item had been taken. -/
  before : Station
  /-- The station when what it completed was settled. -/
  after : Station

/-- All that arrives up to some moment, what has been read of it, and how the reader and the station
stand then. -/
inductive Trace (setup : Setup) (first : Station) :
    (received : List UartItem) → (log : List Reading) → LineReader → Station → Prop
  /-- Nothing has been read. -/
  | start : Trace setup first first.wires.uartIn [] (.collecting []) first
  /-- More arrives. -/
  | receive {received : List UartItem} {log : List Reading} {r : LineReader} {s : Station}
      (items : List UartItem) : Trace setup first received log r s →
      Trace setup first (received ++ items) log r (leaving s (s.wires.uartIn ++ items))
  /-- Something happens that leaves the wires of the link alone. -/
  | elsewhere {received : List UartItem} {log : List Reading} {r : LineReader} {s s' : Station} :
      Trace setup first received log r s → s'.uart = s.uart → Trace setup first received log r s'
  /-- The task makes a step. -/
  | turn {received : List UartItem} {log : List Reading} {r r' : LineReader} {s s' : Station}
      {item : UartItem} {rest : List UartItem} : Trace setup first received log r s →
      s.wires.uartIn = item :: rest → step setup r s = .go s' r' →
      Trace setup first received
        (log ++ [⟨item, payload? (r.feed item).2, leaving s rest, s'⟩]) r' s'

/-- What an item comes to behind an open line. -/
structure Reading.Follows (setup : Setup) (line : List UInt8) (t : Reading) : Prop where
  /-- A payload is handed on if the item completes it. -/
  payload_eq : t.payload = payload? (LineReader.completed? line t.item)
  /-- What the item completes is settled. -/
  after_eq : t.after = settle setup t.before (LineReader.completed? line t.item)

/-- The payload that was handed on was carried out, and nothing else was. -/
structure Reading.CarriesOut (setup : Setup) (t : Reading) : Prop where
  /-- The payload was handled, and the answer was written. -/
  handed : ∀ payload, t.payload = some payload →
    t.after = respond (t.before.handle setup payload).1.message (t.before.handle setup payload).2
  /-- Without a payload the pad and the queue stay as they are. -/
  idle : t.payload = none → t.after.pad = t.before.pad ∧ t.after.queue = t.before.queue

theorem Reading.Follows.carriesOut {line : List UInt8} {t : Reading} (h : t.Follows setup line) :
    t.CarriesOut setup := by
  cases hcompleted : LineReader.completed? line t.item with
  | none =>
    have hpayload : t.payload = none := by
      rw [h.payload_eq, hcompleted]
      rfl
    have hafter : t.after = t.before := by rw [h.after_eq, hcompleted, settle]
    refine ⟨fun payload hsome => ?_, fun _ => hafter ▸ ⟨rfl, rfl⟩⟩
    rw [hpayload] at hsome
    cases hsome
  | some read =>
    have hpayload : t.payload = payload? (some read) := by rw [h.payload_eq, hcompleted]
    have hafter : t.after = serve setup read t.before := by rw [h.after_eq, hcompleted, settle]
    refine ⟨fun payload hsome => ?_, fun hnone => ?_⟩
    · rw [hafter]
      exact serve_of_payload (hpayload ▸ hsome)
    · rw [hpayload] at hnone
      rw [hafter]
      exact serve_of_no_payload hnone

/-- What was written meanwhile. -/
def Reading.written (t : Reading) : List (Nat × Text) :=
  t.after.wires.uartOut.drop t.before.wires.uartOut.length

/-- The items that were read. -/
def items (log : List Reading) : List UartItem := log.map Reading.item

theorem items_append (log log' : List Reading) : items (log ++ log') = items log ++ items log' :=
  List.map_append

/-- Every item has come to what it comes to behind the line that was open then. -/
def Follows (setup : Setup) (log : List Reading) : Prop :=
  ∀ earlier t later, log = earlier ++ t :: later →
    t.Follows setup (LineReader.openLine (items earlier))

theorem follows_concat {log : List Reading} {t : Reading} :
    Follows setup (log ++ [t]) ↔
      Follows setup log ∧ t.Follows setup (LineReader.openLine (items log)) := by
  constructor
  · intro h
    refine ⟨fun earlier t' later hlog => ?_, h log t [] rfl⟩
    exact h earlier t' (later ++ [t]) (by rw [hlog, List.append_assoc, List.cons_append])
  · rintro ⟨hlog, ht⟩ earlier t' later heq
    rcases List.eq_nil_or_concat later with rfl | ⟨front, last, rfl⟩
    · obtain ⟨rfl, hlast⟩ := List.append_inj' heq rfl
      obtain rfl := List.head_eq_of_cons_eq hlast
      exact ht
    · rw [List.concat_eq_append, ← List.cons_append, ← List.append_assoc] at heq
      exact hlog earlier t' front (List.append_inj' heq rfl).1

namespace Trace

variable {first : Station} {received : List UartItem} {log : List Reading}

/-- What another task does leaves the link where it stands. -/
theorem task_step (h : Trace setup first received log r s) {t : Task}
    (ht : ∀ r, t ≠ .commands r) : Trace setup first received log r (t.step setup s).world :=
  h.elsewhere (Task.uart_step setup ht)

/-- **What has arrived is read in order**, and nothing of it twice. -/
theorem received_eq (h : Trace setup first received log r s) :
    received = items log ++ s.wires.uartIn := by
  induction h with
  | start => rfl
  | receive items _ ih => rw [ih, List.append_assoc]; rfl
  | elsewhere _ huart ih => rw [ih, (Prod.mk.inj huart).1]
  | @turn received log r r' s s' item rest _ hnext hstep ih =>
    rw [step_of_item hnext] at hstep
    obtain ⟨rfl, -⟩ := Turn.go.inj hstep
    obtain ⟨faults, written, -, hwires⟩ := settle_wires setup (leaving s rest) (r.feed item).2
    rw [hwires, ih, hnext, items_append, List.append_assoc]
    rfl

/-- **What was written is what was written when items were read**, one after the other. -/
theorem output_eq (h : Trace setup first received log r s) :
    s.wires.uartOut = first.wires.uartOut ++ log.flatMap Reading.written := by
  induction h with
  | start => simp
  | receive _ _ ih => exact ih
  | elsewhere _ huart ih => rw [(Prod.mk.inj huart).2, ih]
  | @turn received log r r' s s' item rest _ hnext hstep ih =>
    rw [step_of_item hnext] at hstep
    obtain ⟨rfl, -⟩ := Turn.go.inj hstep
    obtain ⟨faults, written, -, hwires⟩ := settle_wires setup (leaving s rest) (r.feed item).2
    have hbefore : (leaving s rest).wires.uartOut = s.wires.uartOut := rfl
    have hwritten : (settle setup (leaving s rest) (r.feed item).2).wires.uartOut =
        s.wires.uartOut ++ written := by rw [hwires]; rfl
    rw [List.flatMap_append, List.flatMap_singleton, ← List.append_assoc, ← ih]
    simp only [Reading.written, hwritten, hbefore, List.drop_left]

/-- The reader is the one for the open line. -/
theorem reader_eq (h : Trace setup first received log r s) :
    r = LineReader.ofOpen (LineReader.openLine (items log)) := by
  induction h with
  | start => rfl
  | receive _ _ ih => exact ih
  | elsewhere _ _ ih => exact ih
  | turn _ hnext hstep ih =>
    rw [step_of_item hnext, ih, LineReader.feed_ofOpen] at hstep
    obtain ⟨-, rfl⟩ := Turn.go.inj hstep
    rw [items_append]
    exact congrArg LineReader.ofOpen (LineReader.openLine_concat ..).symm

/-- **What an item comes to depends on the line that is open.** -/
theorem follows (h : Trace setup first received log r s) : Follows setup log := by
  induction h with
  | start =>
    intro earlier t later hlog
    simp at hlog
  | receive _ _ ih => exact ih
  | elsewhere _ _ ih => exact ih
  | turn htrace hnext hstep ih =>
    rw [step_of_item hnext, htrace.reader_eq, LineReader.feed_ofOpen] at hstep
    obtain ⟨rfl, -⟩ := Turn.go.inj hstep
    refine follows_concat.2 ⟨ih, ?_, rfl⟩
    rw [htrace.reader_eq, LineReader.feed_ofOpen]

/-- Everything that has arrived can be read to its end. If writes do not fail now, none fails. -/
theorem exists_end (h : Trace setup first received log r s) :
    ∃ more r' s', Trace setup first received (log ++ more) r' s' ∧ s'.wires.uartIn = [] ∧
      (s.wires.uartFaults = 0 → ∀ t ∈ more, t.before.wires.uartFaults = 0) := by
  induction hitems : s.wires.uartIn generalizing log r s with
  | nil => exact ⟨[], r, s, by simpa using h, hitems, by simp⟩
  | cons item rest ih =>
    have hturn := h.turn hitems (step_of_item hitems setup r)
    obtain ⟨faults, written, hle, hwires⟩ := settle_wires setup (leaving s rest) (r.feed item).2
    obtain ⟨more, r', s', hmore, hend, hfaults⟩ := ih hturn (by rw [hwires]; rfl)
    rw [List.append_assoc] at hmore
    refine ⟨_, r', s', hmore, hend, fun hnone => ?_⟩
    refine List.forall_mem_append.2 ⟨List.forall_mem_singleton.2 hnone, hfaults ?_⟩
    rw [hwires]
    exact Nat.le_zero.1 (hnone ▸ hle)

end Trace

end CommandLink

end PadScript
