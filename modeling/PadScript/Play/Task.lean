import PadScript.Play.CommandLink
import PadScript.Play.Execution
import PadScript.Play.Output

/-!
# The tasks of a station

`Task` is any of the tasks that run side by side. `Task.pass` gives each of them a turn, in order,
and `Task.settle` makes passes until no task gets on any more. `Task.advance` lets time go by: the
tasks settle at every time that one of them waits for.
-/

namespace PadScript

/-- A task and its state. -/
inductive Task where
  /-- The task that plays requests. -/
  | runner (r : Runner)
  /-- The task of periodic reports. -/
  | periodic (t : Periodic)
  /-- The task that serves realtime mode. -/
  | realtime (r : Realtime)
  /-- The task that answers the host. -/
  | hostReports (t : HostReports)
  /-- The task that serves the command link. -/
  | commands (r : LineReader)
  /-- The task that asks for the run on power-up. -/
  | powerUp
  /-- A task that is done. -/
  | over

namespace Task

/-- One step of a task. -/
def step (setup : Setup) (t : Task) (s : Station) : Turn Station Task Unit :=
  let finish (s : Station) (_ : Unit) : Turn Station Task Unit := .done s ()
  match t with
  | .runner r => (r.step setup s).within .runner finish
  | .periodic t => (t.step s).within .periodic finish
  | .realtime r => (r.serve s).within .realtime finish
  | .hostReports t => (t.step s).within .hostReports finish
  | .commands r => (CommandLink.step setup r s).within .commands finish
  | .powerUp => (PowerUp.step setup s).within (fun _ => .powerUp) finish
  | .over => .wait s .over false

/-- The time that a task waits for. -/
def deadline? : Task → Option Nat
  | .runner r => r.deadline?
  | .periodic t => t.deadline?
  | .realtime r => r.deadline?
  | _ => none

/-- The task that keeps the host up to date. -/
def output (profile : Profile) (now : Nat) : Task :=
  match profile with
  | .proController => .periodic (.stamping now)
  | .horipadS => .realtime .waiting

/-- The tasks of a pad without links, in the order of their turns. -/
def bare (profile : Profile) (now : Nat) : List Task := [.runner .idle, output profile now]

/-- All tasks, in the order of their turns. -/
def all (profile : Profile) (now : Nat) : List Task :=
  let rest := [.runner .idle, .commands (.collecting []), .powerUp]
  match profile with
  | .proController => output profile now :: .hostReports .reading :: rest
  | .horipadS => output profile now :: rest

variable (setup : Setup) (fuel : Nat)

/-- Gives each task a turn of at most `fuel` steps. Tells whether another pass is called for. -/
def pass : List Task → Station → Bool × List Task × Station
  | [], s => (false, [], s)
  | t :: rest, s =>
    match Turn.run (step setup) fuel false t s with
    | .waits s t moved =>
      let (moved', rest, s) := pass rest s
      (moved || moved', t :: rest, s)
    | .done s () =>
      let (_, rest, s) := pass rest s
      (true, .over :: rest, s)

/-- Makes passes, at most `passes` of them, until no task gets on any more. -/
def settle : (passes : Nat) → List Task → Station → List Task × Station
  | 0, tasks, s => (tasks, s)
  | passes + 1, tasks, s =>
    match pass setup fuel tasks s with
    | (true, tasks, s) => settle passes tasks s
    | (false, tasks, s) => (tasks, s)

/-- The earliest time that a task waits for. -/
def earliest? (tasks : List Task) : Option Nat := (tasks.filterMap deadline?).min?

/-- Lets time go by until just before `time`, at most `rounds` times from one deadline to the
next. -/
def advance (time : Nat) : (rounds : Nat) → List Task → Station → List Task × Station
  | 0, tasks, s => (tasks, s)
  | rounds + 1, tasks, s =>
    match earliest? tasks with
    | none => (tasks, s)
    | some deadline =>
      if deadline < time then
        let (tasks, s) := settle setup fuel fuel tasks { s with now := deadline }
        advance time rounds tasks s
      else (tasks, s)

end Task

end PadScript
