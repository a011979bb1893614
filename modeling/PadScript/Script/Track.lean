import PadScript.Text.Basic

/-!
# Tracks

A `Track` is one macro: its action lines, in order. A `Place` is a position in a track that knows
whose track it is, so that the same lines stored twice give different positions. The position behind
the last line is the *finished* one, and is its own successor.
-/

namespace PadScript

/-- The action lines of one macro, in order. -/
structure Track where
  /-- The lines. -/
  lines : List Text
deriving DecidableEq, Repr

namespace Track

/-- The track without lines. -/
def empty : Track := ⟨[]⟩

/-- The track with one more line behind the others. -/
def append (t : Track) (line : Text) : Track := ⟨t.lines ++ [line]⟩

/-- The number of lines. -/
def length (t : Track) : Nat := t.lines.length

/-- There are no lines. -/
def isEmpty (t : Track) : Bool := t.lines.isEmpty

theorem length_pos_of_not_isEmpty {t : Track} (h : t.isEmpty = false) : 0 < t.length := by
  obtain ⟨lines⟩ := t
  cases lines <;> simp_all [isEmpty, length]

end Track

/-- Whose track a position is in. A label leads to one track, so it stands for that track. -/
inductive Owner where
  /-- The track that a run starts in. -/
  | root
  /-- The track that a label leads to. -/
  | stored (label : Text)
deriving DecidableEq, Repr

/-- A position in a track. -/
structure Place where
  /-- Whose track it is. -/
  owner : Owner
  /-- The track. -/
  track : Track
  /-- How many lines stand before the position. -/
  index : Nat
deriving DecidableEq, Repr

/-- The first position of a track. -/
def Track.headOf (owner : Owner) (t : Track) : Place := ⟨owner, t, 0⟩

namespace Place

/-- The line at the position; none at the finished one. -/
def action? (p : Place) : Option Text := p.track.lines[p.index]?

/-- The position is behind the last line. -/
def isFinished (p : Place) : Bool := p.track.length ≤ p.index

/-- The following position. -/
def next (p : Place) : Place := { p with index := min (p.index + 1) p.track.length }

/-- The first position of the same track. -/
def head (p : Place) : Place := { p with index := 0 }

/-- The same position: equal lines of different owners are different positions. -/
def same (p q : Place) : Bool := p.owner = q.owner && p.index = q.index

/-- The number of lines from the position on. -/
def remaining (p : Place) : Nat := p.track.length - p.index

theorem isFinished_eq_false_iff {p : Place} : p.isFinished = false ↔ p.index < p.track.length := by
  simp [isFinished]

theorem action?_eq_none_iff {p : Place} : p.action? = none ↔ p.isFinished = true := by
  simp only [action?, isFinished, Track.length, List.getElem?_eq_none_iff]
  exact decide_eq_true_iff.symm

theorem index_lt_of_action? {p : Place} {line : Text} (h : p.action? = some line) :
    p.index < p.track.length := by
  simp only [action?, List.getElem?_eq_some_iff] at h
  exact h.1

/-- A step forward leaves one line fewer. -/
theorem remaining_next {p : Place} (h : p.index < p.track.length) :
    p.next.remaining + 1 = p.remaining := by
  simp only [remaining, next]
  omega

end Place

end PadScript
