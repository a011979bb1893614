import PadScript.Proofs.Cursor.Nesting

/-!
# The course of a run, by nested recursion

A `Course` is what playing some rows comes to: the lines that are given, and the parameters that are
left. Courses run one behind another (`Course.andThen`) and again and again (`Course.repeated`).

`interpret` gives the course of the lines of a track the way one would say what a script means: it
goes through the lines in order, and for a jump it interprets the lines of the track that is entered
as often as the suffix directs. It knows nothing of frames and counters. A label that is open is not
entered again, so every jump goes to one of ever fewer labels.
-/

namespace PadScript

/-- What playing rows comes to: from the parameters before, the lines that are given and the
parameters after. -/
abbrev Course := Params → List Text × Params

namespace Course

/-- Nothing is played. -/
def skip : Course := fun p => ([], p)

/-- A line is given. -/
def give (line : Text) : Course := fun p => ([line], p)

/-- Statements are run. -/
def exec (source : Text) : Course := fun p => ([], p.exec source)

/-- One course and then another. -/
def andThen (f g : Course) : Course := fun p =>
  ((f p).1 ++ (g (f p).2).1, (g (f p).2).2)

/-- A course some number of times. -/
def repeated : (n : Nat) → Course → Course
  | 0, _ => skip
  | n + 1, f => f.andThen (repeated n f)

/-- A course as often as the parameters say at its start. -/
def repeatedBy (rounds : Params → Nat) (f : Course) : Course := fun p => repeated (rounds p) f p

@[simp] theorem skip_andThen (f : Course) : skip.andThen f = f := by
  funext p
  simp [skip, andThen]

@[simp] theorem andThen_skip (f : Course) : f.andThen skip = f := by
  funext p
  simp [skip, andThen]

theorem andThen_assoc (f g h : Course) : (f.andThen g).andThen h = f.andThen (g.andThen h) := by
  funext p
  simp [andThen, List.append_assoc]

@[simp] theorem repeated_skip (n : Nat) : repeated n skip = skip := by
  induction n with
  | zero => rfl
  | succ n ih => simp [repeated, ih]

@[simp] theorem repeatedBy_skip (rounds : Params → Nat) : repeatedBy rounds skip = skip := by
  funext p
  simp [repeatedBy]

end Course

namespace Directive

/-- How often a jump with this suffix plays the track that it enters; counts end at
`Position.mostTimes`. -/
def rounds (suffix : Text) (p : Params) : Nat := min (times p suffix).toNat Position.mostTimes

end Directive

namespace Library

/-- The track that a jump enters while some labels are open: that of a label which is not open and
leads to some lines. -/
def enterable? (library : Library) (opened : List Text) (label : Text) : Option Track :=
  (library.track? label).filter fun t => !t.isEmpty && !opened.contains label

/-- The labels that are not open. -/
def closedTo (library : Library) (opened : List Text) : List Text :=
  library.labels.filter fun label => !opened.contains label

theorem enterable?_eq_some_iff {library : Library} {opened : List Text} {label : Text} {t : Track} :
    library.enterable? opened label = some t ↔
      library.track? label = some t ∧ t.isEmpty = false ∧ label ∉ opened := by
  simp [enterable?, Option.filter_eq_some_iff]

/-- Entering a track leaves fewer labels to enter. -/
theorem length_closedTo_lt {library : Library} {opened : List Text} {label : Text} {t : Track}
    (h : library.enterable? opened label = some t) :
    (library.closedTo (label :: opened)).length < (library.closedTo opened).length := by
  obtain ⟨ht, -, hclosed⟩ := enterable?_eq_some_iff.1 h
  have hsub : library.closedTo (label :: opened) =
      (library.closedTo opened).filter fun l => !(l == label) := by
    simp only [closedTo, List.filter_filter, List.contains_cons, Bool.not_or]
  rw [hsub]
  refine List.length_filter_lt_length_iff_exists.2 ⟨label, ?_, by simp⟩
  simp only [closedTo, List.mem_filter]
  exact ⟨mem_labels_of_track? ht, by simp [hclosed]⟩

end Library

/-- The course of lines while the tracks of some labels are open. -/
def interpret (library : Library) (opened : List Text) : (lines : List Text) → Course
  | [] => .skip
  | line :: rest =>
    match Directive.ofLine line with
    | .jump label suffix =>
      match _h : library.enterable? opened label with
      | some t =>
        (Course.repeatedBy (Directive.rounds suffix)
          (interpret library (label :: opened) t.lines)).andThen (interpret library opened rest)
      | none => interpret library opened rest
    | .body => interpret library opened rest
    | .exec source => (Course.exec source).andThen (interpret library opened rest)
    | .action line => (Course.give line).andThen (interpret library opened rest)
termination_by lines => ((library.closedTo opened).length, lines.length)
decreasing_by
  all_goals simp_wf
  · exact .left _ _ (Library.length_closedTo_lt ‹_›)
  all_goals exact .right _ (Nat.lt_succ_self _)

section Interpret

variable {library : Library} {opened : List Text} {line label suffix source : Text}
  (rest : List Text)

@[simp] theorem interpret_nil : interpret library opened [] = .skip := by
  rw [interpret]

theorem interpret_cons_of_enter {t : Track} (h : Directive.ofLine line = .jump label suffix)
    (ht : library.enterable? opened label = some t) :
    interpret library opened (line :: rest) =
      (Course.repeatedBy (Directive.rounds suffix)
        (interpret library (label :: opened) t.lines)).andThen (interpret library opened rest) := by
  rw [interpret, h]
  simp only
  split
  next t' ht' =>
    rw [ht] at ht'
    cases ht'
    rfl
  next hnone => simp [ht] at hnone

theorem interpret_cons_of_pass (h : Directive.ofLine line = .jump label suffix)
    (ht : library.enterable? opened label = none) :
    interpret library opened (line :: rest) =
      Course.skip.andThen (interpret library opened rest) := by
  rw [interpret, h, Course.skip_andThen]
  simp only
  split
  next t ht' => simp [ht] at ht'
  next => rfl

theorem interpret_cons_of_body (h : Directive.ofLine line = .body) :
    interpret library opened (line :: rest) =
      Course.skip.andThen (interpret library opened rest) := by
  rw [interpret, h, Course.skip_andThen]

theorem interpret_cons_of_exec (h : Directive.ofLine line = .exec source) :
    interpret library opened (line :: rest) =
      (Course.exec source).andThen (interpret library opened rest) := by
  rw [interpret, h]

theorem interpret_cons_of_action {given : Text} (h : Directive.ofLine line = .action given) :
    interpret library opened (line :: rest) =
      (Course.give given).andThen (interpret library opened rest) := by
  rw [interpret, h]

end Interpret

end PadScript
