/-!
# Turns

A task runs by turns: it goes on until it has to wait, and then the next task has its turn. Within a
turn it makes small steps, and `Turn` is what a step comes to. `Turn.run` makes steps until the task
waits or is done.
-/

namespace PadScript

/-- What a step of a task comes to: `ω` is what tasks share, `σ` the state of the task and `α` its
result. -/
inductive Turn (ω σ α : Type) where
  /-- The task has to wait. It asks for another turn at the same instant if `again`. -/
  | wait (world : ω) (state : σ) (again : Bool)
  /-- The task goes on. -/
  | go (world : ω) (state : σ)
  /-- The task is done. -/
  | done (world : ω) (result : α)

namespace Turn

variable {ω ω' σ τ α β : Type}

/-- The same turn for tasks that share more. -/
def widen (f : ω → ω') : Turn ω σ α → Turn ω' σ α
  | wait w s again => wait (f w) s again
  | go w s => go (f w) s
  | done w a => done (f w) a

/-- The same turn for a task of which this one is a part: `stay` wraps its state, and `next` is the
step that follows its result. -/
def within (stay : σ → τ) (next : ω → α → Turn ω τ β) : Turn ω σ α → Turn ω τ β
  | wait w s again => wait w (stay s) again
  | go w s => go w (stay s)
  | done w a => next w a

/-- Where a task has got to. -/
inductive Rest (ω σ α : Type) where
  /-- It waits. `moved` tells whether another pass over the tasks is called for. -/
  | waits (world : ω) (state : σ) (moved : Bool)
  /-- It is done. -/
  | done (world : ω) (result : α)

/-- Makes steps, at most `fuel` of them, until the task waits or is done. -/
def run (step : σ → ω → Turn ω σ α) : (fuel : Nat) → (moved : Bool) → σ → ω → Rest ω σ α
  | 0, moved, s, w => .waits w s moved
  | fuel + 1, moved, s, w =>
    match step s w with
    | wait w s again => .waits w s (moved || again)
    | go w s => run step fuel true s w
    | done w a => .done w a

end Turn

end PadScript
