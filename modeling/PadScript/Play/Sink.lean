import PadScript.Play.Turn

/-!
# The sink of reports

A `Sink` is where reports go. What becomes of the next attempts is a list of `Outcome`s; when it is
empty every attempt succeeds. `Write` is a send with retries: an attempt that would block is made
again, a few times.
-/

namespace PadScript

/-- Why a report was not taken. -/
inductive OutputError where
  /-- It cannot be taken at the moment. -/
  | wouldBlock
  /-- The host is gone. -/
  | disconnected
  /-- Anything else. -/
  | io
deriving DecidableEq, Repr

/-- The wording of an error. -/
def OutputError.message : OutputError → String
  | .wouldBlock => "endpoint busy"
  | .disconnected => "disconnected"
  | .io => "i/o error"

/-- What becomes of an attempt to send. -/
inductive Outcome where
  /-- The report is taken. -/
  | taken
  /-- The report is refused. -/
  | refused (e : OutputError)
  /-- The attempt is not over yet: the sender has to wait a turn. -/
  | suspended
deriving DecidableEq, Repr

/-- Where reports go. -/
structure Sink where
  /-- What becomes of the next attempts. -/
  outcomes : List Outcome
  /-- The reports that were taken, and when. -/
  sent : List (Nat × List UInt8)
  /-- The number of attempts, failed ones too. -/
  attempts : Nat
deriving DecidableEq, Repr

/-- The sink in the beginning. -/
def Sink.fresh : Sink := ⟨[], [], 0⟩

/-- A send with retries. -/
structure Write where
  /-- The report. -/
  report : List UInt8
  /-- How many more attempts may block. -/
  retries : Nat
deriving DecidableEq, Repr

namespace Write

/-- How often a send that would block is tried again. -/
def mostRetries : Nat := 3

/-- The send of a report. -/
def ofReport (report : List UInt8) : Write := ⟨report, mostRetries⟩

/-- One attempt. -/
def step (now : Nat) (w : Write) (s : Sink) : Turn Sink Write (Except OutputError Unit) :=
  match s.outcomes with
  | .suspended :: rest => .wait { s with outcomes := rest } w true
  | .refused e :: rest =>
    let s := { s with outcomes := rest, attempts := s.attempts + 1 }
    match e, w.retries with
    | .wouldBlock, retries + 1 => .go s { w with retries := retries }
    | e, _ => .done s (.error e)
  | .taken :: rest =>
    .done ⟨rest, s.sent ++ [(now, w.report)], s.attempts + 1⟩ (.ok ())
  | [] => .done ⟨[], s.sent ++ [(now, w.report)], s.attempts + 1⟩ (.ok ())

end Write

end PadScript
