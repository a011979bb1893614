import PadScript.Play.Station
import PadScript.Play.Turn
import PadScript.Text.Utf8

/-!
# The command link

Payloads arrive as lines of bytes. `LineReader.feed` takes one byte or failure after another and
gives what it completes: a line, or a fault. A line that is too long is passed over up to its end.

`CommandLink` is the task that has every line carried out and writes one status line for it. Blank
lines and framing faults get no status. `PowerUp` is the task that asks for the run on power-up once
the host has configured the pad.
-/

namespace PadScript

/-- Why there is no line. -/
inductive LinkError where
  /-- A byte came in broken. -/
  | framing
  /-- The line was too long, or bytes came too fast. -/
  | overflow
  /-- The receiver failed. -/
  | io
  /-- The line is not UTF-8. -/
  | utf8
deriving DecidableEq, Repr

namespace LinkError

/-- The wording of a fault. -/
def message : LinkError → String
  | framing => "framing error"
  | overflow => "line too long"
  | io => "uart error"
  | utf8 => "invalid utf-8"

/-- The fault that a failure of the receiver is. -/
def ofUart : UartError → LinkError
  | .framing => framing
  | .overrun => overflow
  | .other => io

end LinkError

/-- How far a line has been read. -/
inductive LineReader where
  /-- These bytes of it have come. -/
  | collecting (bytes : List UInt8)
  /-- It was too long, and its end has not come. -/
  | discarding
deriving DecidableEq, Repr

namespace LineReader

/-- The longest line, in bytes. -/
def longest : Nat := 512

/-- The byte that ends a line. -/
def newline : UInt8 := 10

/-- The byte that may stand before the end of a line. -/
def carriageReturn : UInt8 := 13

/-- The line that bytes spell. -/
def finish (bytes : List UInt8) : Except LinkError Text :=
  let bytes := if bytes.getLast? = some carriageReturn then bytes.dropLast else bytes
  match Text.ofUtf8? bytes with
  | some line => .ok line
  | none => .error .utf8

/-- Takes what the receiver gives. -/
def feed : LineReader → UartItem → LineReader × Option (Except LinkError Text)
  | _, .failure e => (.collecting [], some (.error (.ofUart e)))
  | .collecting bytes, .byte b =>
    if b = newline then (.collecting [], some (finish bytes))
    else if bytes.length < longest then (.collecting (bytes ++ [b]), none)
    else (.discarding, none)
  | .discarding, .byte b =>
    if b = newline then (.collecting [], some (.error .overflow)) else (.discarding, none)

end LineReader

namespace CommandLink

/-- The longest status line, in bytes. -/
def longestStatus : Nat := 96

/-- The line that carries a status. -/
def statusLine (status : String) : Text :=
  let line := status.toList ++ ['\n']
  if (Text.toUtf8 line).length ≤ longestStatus then line
  else "error: response too long\n".toList

/-- Writes a status line. A write that fails writes nothing. -/
def respond (status : String) (s : Station) : Station :=
  match s.wires.uartFaults with
  | faults + 1 => { s with wires := { s.wires with uartFaults := faults } }
  | 0 =>
    { s with wires := { s.wires with uartOut := s.wires.uartOut ++ [(s.now, statusLine status)] } }

/-- Carries out what has been read. -/
def serve (setup : Setup) (read : Except LinkError Text) (s : Station) : Station :=
  match read with
  | .error .framing => s
  | .error e => respond ("error: " ++ e.message) s
  | .ok line =>
    if (Text.trim line).isEmpty then s
    else
      let (response, s) := s.handle setup line
      respond response.message s

/-- One step of the task. -/
def step (setup : Setup) (r : LineReader) (s : Station) : Turn Station LineReader Unit :=
  match s.wires.uartIn with
  | [] => .wait s r false
  | item :: rest =>
    let s := { s with wires := { s.wires with uartIn := rest } }
    match r.feed item with
    | (r, some read) => .go (serve setup read s) r
    | (r, none) => .go s r

end CommandLink

namespace PowerUp

/-- One step of the task. -/
def step (setup : Setup) (s : Station) : Turn Station Unit Unit :=
  match setup.config.startupRequest? with
  | none => .done s ()
  | some request =>
    if s.wires.configured then
      let s := { s with wires := { s.wires with configured := false } }
      if setup.library.contains request.name then
        match s.queue.enqueue request with
        | .ok queue => .done { s with queue := queue } ()
        | .error _ => .done s ()
      else .done s ()
    else .wait s () false

end PowerUp

end PadScript
