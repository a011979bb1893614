import PadScript.Script.Cursor.Basic

/-!
# Why a cursor gets on

However macros jump into each other, a run comes to its end: every row that is read lowers
`Cursor.potential` (`Cursor.potential_step_lt`). A row costs one unit of the level it stands on, and
the tracks entered from there, of which there is always one fewer, cost less than that unit
together.
-/

namespace PadScript

namespace Cursor

/-- The number of rows left to play at one level. -/
def work (current : Place) (loopRemaining : Nat) : Nat :=
  (loopRemaining - 1) * current.track.length + current.remaining

/-- The labels that are not open. -/
def closed (library : Library) (frames : List Frame) : List Text :=
  library.labels.filter fun label => !frames.any (·.entered = label)

/-- The length of the longest track of some labels. -/
def longestOf (library : Library) : List Text → Nat
  | [] => 0
  | label :: rest => max ((library.track? label).elim 0 Track.length) (longestOf library rest)

/-- More rows than any jump can play on its own level. -/
def ratio (library : Library) : Nat := Position.mostTimes * longestOf library library.labels + 1

/-- What a row costs on a level: the more labels are closed, the more can be entered from there. -/
def unit (library : Library) (frames : List Frame) : Nat :=
  (ratio library).pow (closed library frames).length

/-- What the rows left to play can cost, level by level. -/
def cost (library : Library) : Place → Nat → List Frame → Nat
  | current, loopRemaining, frames =>
    work current loopRemaining * unit library frames +
      match frames with
      | [] => 0
      | f :: rest => cost library f.returnTo f.loopRemaining rest
termination_by structural _ _ frames => frames

/-- What the rest of a run can cost. -/
def potential (c : Cursor) : Nat :=
  cost c.library c.position.current c.position.loopRemaining c.position.frames

theorem length_le_longestOf {library : Library} {label : Text} {t : Track}
    (h : library.track? label = some t) {labels : List Text} (hmem : label ∈ labels) :
    t.length ≤ longestOf library labels := by
  induction labels with
  | nil => simp at hmem
  | cons first rest ih =>
    simp only [longestOf]
    rcases List.mem_cons.1 hmem with rfl | hmem
    · rw [h]
      exact Nat.le_max_left ..
    · exact Nat.le_trans (ih hmem) (Nat.le_max_right ..)

theorem ratio_pos (library : Library) : 0 < ratio library := Nat.succ_pos _

/-- Opening a label leaves fewer closed. -/
theorem length_closed_lt {library : Library} {label : Text} {t : Track} {f : Frame}
    {frames : List Frame} (h : library.track? label = some t) (hf : f.entered = label)
    (hclosed : frames.any (·.entered = label) = false) :
    (closed library (f :: frames)).length < (closed library frames).length := by
  have hsub : closed library (f :: frames) =
      (closed library frames).filter fun l => !decide (f.entered = l) := by
    simp only [closed, List.filter_filter, List.any_cons, Bool.not_or]
  rw [hsub]
  refine List.length_filter_lt_length_iff_exists.2 ⟨label, ?_, by simp [hf]⟩
  simp only [closed, List.mem_filter, hclosed, Bool.not_false, and_true]
  exact Library.mem_labels_of_track? h

theorem unit_pos (library : Library) (frames : List Frame) : 0 < unit library frames :=
  Nat.pow_pos (ratio_pos library)

/-- Fewer rows than the ratio, on the level that a jump enters, cost less than the row of the
jump. -/
theorem mul_unit_lt {library : Library} {label : Text} {t : Track} {f : Frame} {frames : List Frame}
    (h : library.track? label = some t) (hf : f.entered = label)
    (hclosed : frames.any (·.entered = label) = false) {n : Nat} (hn : n < ratio library) :
    n * unit library (f :: frames) < unit library frames := by
  have hlt := length_closed_lt h hf hclosed
  refine Nat.lt_of_lt_of_le (Nat.mul_lt_mul_of_pos_right hn (unit_pos library _)) ?_
  rw [Nat.mul_comm]
  exact Nat.pow_le_pow_right (ratio_pos library) hlt

/-- Leaving finished tracks costs nothing. -/
theorem cost_leave_le (library : Library) (current : Place) (loopRemaining : Nat)
    (frames : List Frame) :
    cost library (Position.leave current loopRemaining frames).current
        (Position.leave current loopRemaining frames).loopRemaining
        (Position.leave current loopRemaining frames).frames ≤
      cost library current loopRemaining frames := by
  induction frames generalizing current loopRemaining with
  | nil =>
    unfold Position.leave
    split
    · exact Nat.le_refl _
    · split
      · simp only [cost, work, Place.head, Place.remaining]
        refine Nat.add_le_add_right (Nat.mul_le_mul_right _ ?_) _
        obtain ⟨k, rfl⟩ : ∃ k, loopRemaining = k + 2 := ⟨loopRemaining - 2, by omega⟩
        simp only [Nat.add_sub_cancel, show k + 2 - 1 = k + 1 from rfl, Nat.add_mul]
        omega
      · exact Nat.le_refl _
  | cons f rest ih =>
    unfold Position.leave
    split
    · exact Nat.le_refl _
    · split
      · simp only [cost, work, Place.head, Place.remaining]
        refine Nat.add_le_add_right (Nat.mul_le_mul_right _ ?_) _
        obtain ⟨k, rfl⟩ : ∃ k, loopRemaining = k + 2 := ⟨loopRemaining - 2, by omega⟩
        simp only [Nat.add_sub_cancel, show k + 2 - 1 = k + 1 from rfl, Nat.add_mul]
        omega
      · refine Nat.le_trans (ih ..) ?_
        rw [cost]
        exact Nat.le_add_left ..

theorem work_next {current : Place} (h : current.index < current.track.length) (n : Nat) :
    work current.next n + 1 = work current n := by
  have := Place.remaining_next h
  simp only [work, Place.next] at this ⊢
  omega

theorem cost_next_lt (library : Library) {current : Place}
    (h : current.index < current.track.length) (n : Nat) (frames : List Frame) :
    cost library current.next n frames + unit library frames ≤ cost library current n frames := by
  have hw := work_next h n
  unfold cost
  rw [← hw, Nat.add_mul, Nat.one_mul]
  omega

theorem cost_advance_lt (library : Library) (p : Position)
    (h : p.current.index < p.current.track.length) :
    cost library p.advance.current p.advance.loopRemaining p.advance.frames <
      cost library p.current p.loopRemaining p.frames := by
  have hleave := cost_leave_le library p.current.next p.loopRemaining p.frames
  have hnext := cost_next_lt library h p.loopRemaining p.frames
  have hpos := unit_pos library p.frames
  simp only [Position.advance]
  omega

theorem cost_enter_lt {library : Library} {p : Position} {label : Text} {t : Track} {times : Nat}
    (h : p.current.index < p.current.track.length) (ht : library.track? label = some t)
    (hclosed : p.hasOpen label = false) (hpos : 0 < times) (htimes : times ≤ Position.mostTimes) :
    cost library (p.enter label t times).current (p.enter label t times).loopRemaining
        (p.enter label t times).frames <
      cost library p.current p.loopRemaining p.frames := by
  have hnext := cost_next_lt library h p.loopRemaining p.frames
  have hwork : work (t.headOf (.stored label)) times < ratio library := by
    obtain ⟨k, rfl⟩ : ∃ k, times = k + 1 := ⟨times - 1, by omega⟩
    have hlen := length_le_longestOf ht (Library.mem_labels_of_track? ht)
    have : (k + 1) * t.length ≤ Position.mostTimes * longestOf library library.labels :=
      Nat.mul_le_mul htimes hlen
    simp only [work, Track.headOf, Place.remaining, ratio, Nat.add_sub_cancel, Nat.add_mul]
      at this ⊢
    omega
  have hentered : work (t.headOf (.stored label)) times *
        unit library (⟨p.current.next, p.loopRemaining, label⟩ :: p.frames) <
      unit library p.frames := mul_unit_lt ht rfl hclosed hwork
  exact Nat.lt_of_lt_of_le (Nat.add_lt_add_right hentered _) (Nat.add_comm .. ▸ hnext)

theorem cost_jump_lt (library : Library) (p : Position)
    (h : p.current.index < p.current.track.length) (label : Text) (times : Int) :
    cost library (p.jump library label times).current (p.jump library label times).loopRemaining
        (p.jump library label times).frames <
      cost library p.current p.loopRemaining p.frames := by
  unfold Position.jump
  split
  next t ht =>
    split
    next hc =>
      simp only [Bool.and_eq_true, Bool.not_eq_true', decide_eq_true_eq] at hc
      refine cost_enter_lt h ht hc.2 ?_ (Nat.min_le_right ..)
      have := Position.mostTimes_pos
      omega
    next => exact cost_advance_lt library p h
  next => exact cost_advance_lt library p h

/-- A row that is read brings the end nearer. -/
theorem potential_step_lt {c : Cursor} (h : c.step.1 ≠ .finished) :
    c.step.2.potential < c.potential := by
  unfold step at h ⊢
  split at h
  · simp at h
  next line hline =>
    have hlt := Place.index_lt_of_action? hline
    split
    · exact cost_jump_lt _ _ hlt ..
    · exact cost_advance_lt _ _ hlt
    · exact cost_advance_lt _ _ hlt
    · exact cost_advance_lt _ _ hlt

end Cursor

end PadScript
