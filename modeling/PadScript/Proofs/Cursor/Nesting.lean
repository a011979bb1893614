import PadScript.Script.Cursor.Lines

/-!
# How the tracks of a run nest

A position of a run is a stack of *levels*: the track that is being played, and below it, for every
frame, the track that the frame returns to, down to the track that the run started in. This file
says which stacks can come about.

* `Nested` : above the root, every level is the non-empty track of its label, no label is entered
  twice, and every counter is at least one.
* `Position.Sound` : the levels are right, and nothing is left open at the finished position. Every
  move of a position keeps this (`Position.sound_advance`, `Position.sound_jump`).
* `Cursor.Sound` : both positions of a cursor are sound. A new cursor is, and every call leaves
  it so (`Cursor.sound_nextLine` and its neighbours).

The counter of the root is always one, which is why a run whose own track is empty needs no
exception.
-/

namespace PadScript

/-- The levels of a run that started at `root`: a place, how often its track is still to be played,
and the frames below. -/
inductive Nested (library : Library) (root : Place) : Place → Nat → List Frame → Prop
  /-- The run is in the track that it started in. -/
  | root {current : Place} :
      current.owner = root.owner → current.track = root.track →
      current.index ≤ current.track.length → Nested library root current 1 []
  /-- The run is in a track that a jump has entered. -/
  | entered {current : Place} {n : Nat} {f : Frame} {frames : List Frame} :
      library.track? f.entered = some current.track → current.owner = .stored f.entered →
      current.track.isEmpty = false → current.index ≤ current.track.length → 0 < n →
      f.entered ∉ frames.map (·.entered) → Nested library root f.returnTo f.loopRemaining frames →
      Nested library root current n (f :: frames)

namespace Nested

variable {library : Library} {root current : Place} {n : Nat} {frames : List Frame}

/-- Moving within a track keeps the levels. -/
theorem moveTo (h : Nested library root current n frames) {i : Nat}
    (hi : i ≤ current.track.length) : Nested library root { current with index := i } n frames := by
  cases h with
  | root howner htrack _ => exact .root howner htrack hi
  | entered ht howner hne _ hn hfresh hbelow => exact .entered ht howner hne hi hn hfresh hbelow

theorem next (h : Nested library root current n frames) :
    Nested library root current.next n frames :=
  h.moveTo (Nat.min_le_right ..)

/-- A level that is to be played again starts again. -/
theorem again (h : Nested library root current n frames) (hn : 1 < n) :
    Nested library root current.head (n - 1) frames ∧ current.head.isFinished = false := by
  cases h with
  | root => omega
  | entered ht howner hne _ _ hfresh hbelow =>
    refine ⟨.entered ht howner hne (Nat.zero_le _) (by omega) hfresh hbelow, ?_⟩
    rw [Place.isFinished_eq_false_iff]
    exact Track.length_pos_of_not_isEmpty hne

end Nested

namespace Position

/-- A position that can come about in a run that started at `root`. -/
structure Sound (library : Library) (root : Place) (p : Position) : Prop where
  /-- The levels are right. -/
  levels : Nested library root p.current p.loopRemaining p.frames
  /-- Nothing is left open at the finished position. -/
  settled : p.current.isFinished = true → p.frames = [] ∧ p.loopRemaining = 1

variable {library : Library} {root : Place}

/-- Leaving finished tracks settles right levels. -/
theorem sound_leave {current : Place} {n : Nat} {frames : List Frame}
    (h : Nested library root current n frames) : Sound library root (leave current n frames) := by
  -- `leave` goes down the frames until a level is not finished, and so does the induction
  induction frames generalizing current n with
  | nil =>
    unfold leave
    cases h with
    | root howner htrack hi =>
      have hlevels : Nested library root current 1 [] := .root howner htrack hi
      split
      · exact ⟨hlevels, fun _ => ⟨rfl, rfl⟩⟩
      · exact ⟨hlevels, fun _ => ⟨rfl, rfl⟩⟩
  | cons f rest ih =>
    unfold leave
    split
    next hfin =>
      refine ⟨h, fun hc => ?_⟩
      simp only [hc, Bool.not_true, Bool.false_eq_true] at hfin
    next =>
      split
      next hn =>
        obtain ⟨hlevels, hopen⟩ := h.again hn
        exact ⟨hlevels, fun hc => absurd hc (by simp [hopen])⟩
      next =>
        cases h with
        | entered _ _ _ _ _ _ hbelow => exact ih hbelow

theorem sound_atHead {head : Place} (h : head.index = 0) : Sound library head (.atHead head) :=
  ⟨.root rfl rfl (by simp [atHead, h]), fun _ => ⟨rfl, rfl⟩⟩

theorem sound_advance {p : Position} (h : p.Sound library root) : p.advance.Sound library root :=
  sound_leave h.levels.next

theorem hasOpen_eq_false_iff {p : Position} {label : Text} :
    p.hasOpen label = false ↔ label ∉ p.frames.map (·.entered) := by
  simp [hasOpen, List.mem_map]

/-- Entering a track that is not open, and is not empty, puts a level on top. -/
theorem sound_enter {p : Position} (h : p.Sound library root) {label : Text} {t : Track}
    {times : Nat} (ht : library.track? label = some t) (hne : t.isEmpty = false)
    (hclosed : p.hasOpen label = false) (htimes : 0 < times) :
    (p.enter label t times).Sound library root := by
  refine ⟨.entered ht rfl hne (Nat.zero_le _) htimes (hasOpen_eq_false_iff.1 hclosed)
    h.levels.next, fun hc => ?_⟩
  have hpos : (t.headOf (.stored label)).isFinished = false :=
    Place.isFinished_eq_false_iff.2 (Track.length_pos_of_not_isEmpty hne)
  exact absurd hc (by simp [enter, hpos])

theorem sound_jump {p : Position} (h : p.Sound library root) (label : Text) (times : Int) :
    (p.jump library label times).Sound library root := by
  unfold jump
  split
  next t ht =>
    split
    next hc =>
      simp only [Bool.and_eq_true, Bool.not_eq_true', decide_eq_true_eq] at hc
      obtain ⟨⟨hne, hone⟩, hclosed⟩ := hc
      refine sound_enter h ht hne hclosed ?_
      have := mostTimes_pos
      omega
    next => exact sound_advance h
  next => exact sound_advance h

end Position

namespace Cursor

/-- A cursor that can come about. -/
structure Sound (c : Cursor) : Prop where
  /-- The run starts at the head of its track. -/
  head : c.head.index = 0
  /-- The position is sound. -/
  position : c.position.Sound c.library c.head
  /-- So is the position that the next cycle starts from. -/
  body : c.body.Sound c.library c.head

theorem sound_ofTrack (library : Library) (owner : Owner) (t : Track) (params : Params) :
    (ofTrack library owner t params).Sound :=
  ⟨rfl, Position.sound_atHead rfl, Position.sound_atHead rfl⟩

theorem sound_exec {c : Cursor} (h : c.Sound) (source : Text) : (c.exec source).Sound :=
  ⟨h.head, h.position, h.body⟩

theorem sound_startCycle {c : Cursor} (h : c.Sound) : c.startCycle.Sound :=
  ⟨h.head, h.body, h.body⟩

theorem sound_rewind {c : Cursor} (h : c.Sound) : c.rewind.Sound :=
  ⟨h.head, Position.sound_atHead h.head, h.body⟩

theorem sound_markBody {c : Cursor} (h : c.Sound) : c.markBody.Sound := by
  have hnext := Position.sound_advance h.position
  refine ⟨h.head, hnext, ?_⟩
  simp only [markBody]
  split
  · exact h.body
  · exact hnext

theorem sound_step {c : Cursor} (h : c.Sound) : c.step.2.Sound := by
  unfold step
  split
  · exact h
  · split
    · exact ⟨h.head, Position.sound_jump h.position .., h.body⟩
    · exact sound_markBody h
    · exact ⟨h.head, Position.sound_advance h.position, h.body⟩
    · exact ⟨h.head, Position.sound_advance h.position, h.body⟩

theorem sound_nextLine {c : Cursor} (h : c.Sound) : c.nextLine.2.Sound := by
  fun_induction nextLine c with
  | case1 c next hstep => simpa [hstep] using sound_step h
  | case2 c next hstep ih => exact ih (by simpa [hstep] using sound_step h)
  | case3 c line next hstep => simpa [hstep] using sound_step h

/-! ### Calls -/

/-- A call on a cursor. -/
inductive Call where
  /-- Taking the next line. -/
  | nextLine
  /-- Starting the next cycle: the reset to where a cycle starts. -/
  | startCycle
  /-- Going back to the start of the macro: the full reset. -/
  | rewind
  /-- Running statements from outside. -/
  | exec (source : Text)
deriving DecidableEq, Repr

/-- The cursor after a call. -/
def call (c : Cursor) : Call → Cursor
  | .nextLine => c.nextLine.2
  | .startCycle => c.startCycle
  | .rewind => c.rewind
  | .exec source => c.exec source

/-- The cursor after calls, in order. -/
def after (c : Cursor) (calls : List Call) : Cursor := calls.foldl call c

end Cursor

end PadScript
