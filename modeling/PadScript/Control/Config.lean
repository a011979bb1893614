import PadScript.Control.Command

/-!
# Configuration

`Config` says which pad is shown to the host, which macro is started on power-up, which other names
macros go by, and how time is kept. It is read from a JSON record:

```json
{ "profile": "horipad-s", "autorun": { "name": "daily.loop", "loop": 0 },
  "macros": { "daily": "daily.loop" }, "timing": { "min_send_interval_ms": 3 } }
```

Every field is optional. Times are kept in milliseconds and used in microseconds.
-/

namespace PadScript

/-- The pad that is shown to the host. -/
inductive Profile where
  /-- A pad with a protocol of its own, which holds what was last shown. -/
  | proController
  /-- A plain joystick. -/
  | horipadS
deriving DecidableEq, Repr

/-- The name of a profile. -/
def Profile.name : Profile → String
  | .proController => "pro-controller"
  | .horipadS => "horipad-s"

/-- The run that is started on power-up. -/
structure Autorun where
  /-- The name of the macro, or another name for it. -/
  name : Text
  /-- How many cycles to play. -/
  loopCount : Int
deriving DecidableEq, Repr

/-- The number of microseconds in some milliseconds, in 64 bits. -/
def microseconds (ms : Nat) : Nat := ms * 1000 % UInt64.size

/-- How time is kept, in milliseconds. -/
structure Timing where
  /-- The least time between two changes of input. -/
  minSendIntervalMs : Nat
  /-- The time between two periodic reports. -/
  tickMs : Nat
  /-- How long a realtime line lasts. -/
  realtimeIdleMs : Nat
  /-- The time between two looks for a realtime line. -/
  realtimeTickMs : Nat
deriving DecidableEq, Repr

namespace Timing

/-- The timing when nothing is said. -/
def standard : Timing := ⟨3, 1, 2000, 3⟩

/-- The least time between two changes of input. -/
def minSendInterval (t : Timing) : Nat := microseconds t.minSendIntervalMs

/-- The time between two periodic reports; not less than a millisecond. -/
def tick (t : Timing) : Nat := microseconds (max t.tickMs 1)

/-- How long a realtime line lasts. -/
def realtimeIdle (t : Timing) : Nat := microseconds t.realtimeIdleMs

/-- The time between two looks for a realtime line; not less than a millisecond. -/
def realtimeTick (t : Timing) : Nat := microseconds (max t.realtimeTickMs 1)

end Timing

/-- The configuration. -/
structure Config where
  /-- The pad that is shown. -/
  profile : Profile
  /-- The run that is started on power-up. -/
  autorun : Option Autorun
  /-- Other names of macros. -/
  macros : Members Text
  /-- How time is kept. -/
  timing : Timing
deriving DecidableEq, Repr

/-- Where a configuration is at fault. -/
structure ConfigError where
  /-- The row, counted from one. -/
  line : Nat
  /-- The column. -/
  column : Nat
deriving DecidableEq, Repr

/-- The wording of a fault. -/
def ConfigError.message (e : ConfigError) : String :=
  "invalid config at " ++ toString e.line ++ ":" ++ toString e.column

namespace Config

/-- The configuration when nothing is said. -/
def standard : Config := ⟨.proController, none, [], .standard⟩

open Json.Reader

/-- The fields of a timing. -/
def timingFields : List (Json.Field Timing) :=
  let ms := return (← wholeNumber 0 (UInt64.size - 1)).toNat
  [⟨"min_send_interval_ms".toList, fun t => return { t with minSendIntervalMs := ← ms }⟩,
    ⟨"tick_ms".toList, fun t => return { t with tickMs := ← ms }⟩,
    ⟨"realtime_idle_ms".toList, fun t => return { t with realtimeIdleMs := ← ms }⟩,
    ⟨"realtime_tick_ms".toList, fun t => return { t with realtimeTickMs := ← ms }⟩]

/-- The fields of the run on power-up. -/
def autorunFields : List (Json.Field (Option Text × Int)) := [
  ⟨"name".toList, fun a => return (some (← text), a.2)⟩,
  ⟨"loop".toList, fun a => 
    return (a.1, ← wholeNumber Int64.minValue.toInt Int64.maxValue.toInt)⟩]

/-- Reads the run on power-up, which needs a name. -/
def autorunReader (depth : Nat) : Json.Reader Autorun :=
  record depth autorunFields (none, 1) fun (name, loopCount) => name.map (⟨·, loopCount⟩)

/-- The fields of a configuration. -/
def fields (depth : Nat) : List (Json.Field Config) := [
  ⟨"profile".toList, fun c => return { c with
    profile := ← oneOf (depth - 1) ([Profile.proController, .horipadS].map fun p =>
      (p.name.toList, p)) }⟩,
  ⟨"autorun".toList, fun c => return { c with
    autorun := ← optional (autorunReader (depth - 1)) }⟩,
  ⟨"macros".toList, fun c => return { c with macros := ← table (depth - 1) text }⟩,
  ⟨"timing".toList, fun c => return { c with
    timing := ← record (depth - 1) timingFields .standard some }⟩]

/-- Reads a configuration, or gives the row of the first fault. -/
def parse (t : Text) : Except Nat Config :=
  let depth := Json.Reader.greatestDepth
  match run (record depth (fields depth) standard some) t with
  | .ok c => .ok c
  | .error (.at row) => .error row
  | .error .unplaced => .error 0

/-- Reads a configuration; one that is at fault is as good as none. -/
def parseOrStandard (t : Text) : Config :=
  match parse t with
  | .ok c => c
  | .error _ => standard

/-- The macro that a name stands for; a name that is not in the table stands for itself. -/
def resolve (c : Config) (name : Text) : Text := (c.macros.get? name).getD name

/-- The request that is made on power-up. -/
def startupRequest? (c : Config) : Option PlayRequest :=
  c.autorun.map fun a => ⟨c.resolve a.name, a.loopCount, []⟩

end Config

end PadScript
