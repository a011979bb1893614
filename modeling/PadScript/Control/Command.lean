import PadScript.Script.Params
import PadScript.Json.Record

/-!
# Commands

A `Command` arrives as one JSON record, a *payload*, whose fields are all optional:

```json
{ "name": "daily.loop", "loop": 0, "paras": { "count": 3 }, "stop": false,
  "realtime": "action_start" }
```

`Payload.command` decides what a payload asks for: `realtime` goes before everything else, `stop`
together with a name restarts, and a name alone starts. The answer to a command is a `Response`.
-/

namespace PadScript

/-- A request to run a macro. -/
structure PlayRequest where
  /-- The name of the macro. -/
  name : Text
  /-- How many cycles to play; zero and less stand for cycles without end. -/
  loopCount : Int
  /-- What is laid over the defaults of the macro. -/
  overrides : Overrides

namespace PlayRequest

/-- The run goes on until it is stopped. -/
def isEndless (r : PlayRequest) : Bool := r.loopCount ≤ 0

end PlayRequest

/-- What a client asks for. -/
inductive Command where
  /-- Running a macro. -/
  | start (request : PlayRequest)
  /-- Ending the run. -/
  | stop
  /-- Ending the run and then running a macro. -/
  | restart (request : PlayRequest)
  /-- Beginning realtime mode. -/
  | realtimeStart
  /-- Ending realtime mode. -/
  | realtimeStop
  /-- Playing a line at once, in realtime mode. -/
  | realtimeAction (line : Text)

/-- Why a command is refused. -/
inductive CommandError where
  /-- The payload is not a record of the right shape. -/
  | malformed
  /-- The payload asks for nothing. -/
  | empty
  /-- There is no macro of this name. -/
  | unknownMacro
  /-- Realtime mode is off. -/
  | realtimeInactive
  /-- Too many requests are waiting. -/
  | busy
deriving DecidableEq, Repr

/-- The wording of an error. -/
def CommandError.message : CommandError → String
  | .malformed => "malformed command"
  | .empty => "empty command"
  | .unknownMacro => "unknown macro"
  | .realtimeInactive => "realtime mode inactive"
  | .busy => "busy"

/-- The answer to a command. -/
inductive Response where
  /-- It has been done. -/
  | accepted
  /-- It waits for the runner. -/
  | queued
  /-- It is refused. -/
  | error (e : CommandError)
deriving DecidableEq, Repr

/-- The wording of an answer. -/
def Response.message : Response → String
  | .accepted => "accepted"
  | .queued => "queued"
  | .error e => "error: " ++ e.message

/-- The fields of a command as they arrive. -/
structure Payload where
  /-- The name of a macro. -/
  name : Option Text
  /-- The number of cycles. -/
  loop : Option Int
  /-- The overrides. -/
  paras : Option Overrides
  /-- Whether to stop. -/
  stop : Option Bool
  /-- The word or line for realtime mode. -/
  realtime : Option Text

namespace Payload

open Json.Reader in
/-- The fields, in the order in which an array gives them. -/
def fields (depth : Nat) : List (Json.Field Payload) := [
  ⟨"name".toList, fun p => return { p with name := ← optional text }⟩,
  ⟨"loop".toList, fun p =>
    return { p with
      loop := ← optional (wholeNumber Int64.minValue.toInt Int64.maxValue.toInt) }⟩,
  ⟨"paras".toList, fun p =>
    return { p with paras := ← optional (table (depth - 1) (value (depth - 2))) }⟩,
  ⟨"stop".toList, fun p => return { p with stop := ← optional bool }⟩,
  ⟨"realtime".toList, fun p => return { p with realtime := ← optional text }⟩]

/-- The payload without any field. -/
def blank : Payload := ⟨none, none, none, none, none⟩

/-- Reads a payload; blanks around it do not count. -/
def ofText? (t : Text) : Option Payload :=
  let depth := Json.Reader.greatestDepth
  match Json.Reader.run (Json.Reader.record depth (fields depth) blank some) (Text.trim t) with
  | .ok p => some p
  | .error _ => none

/-- The word that begins realtime mode. -/
def startWord : Text := "action_start".toList

/-- The word that ends realtime mode. -/
def stopWord : Text := "action_stop".toList

/-- What a word or line for realtime mode asks for. -/
def realtimeCommand (t : Text) : Command :=
  let line := Text.trim t
  if line = startWord then .realtimeStart
  else if line = stopWord then .realtimeStop
  else .realtimeAction line

/-- The run that a payload asks for: none without a name. -/
def request? (p : Payload) : Option PlayRequest :=
  match p.name with
  | none => none
  | some name =>
    let name := Text.trim name
    if name.isEmpty then none else some ⟨name, p.loop.getD 1, p.paras.getD []⟩

/-- What a payload asks for. -/
def command (p : Payload) : Except CommandError Command :=
  match p.realtime, p.stop.getD false, p.request? with
  | some t, _, _ => .ok (realtimeCommand t)
  | none, true, some r => .ok (.restart r)
  | none, true, none => .ok .stop
  | none, false, some r => .ok (.start r)
  | none, false, none => .error .empty

end Payload

/-- The command that a payload spells. -/
def Command.parse (payload : Text) : Except CommandError Command :=
  match Payload.ofText? payload with
  | some p => p.command
  | none => .error .malformed

end PadScript
