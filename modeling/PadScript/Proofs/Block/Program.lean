import PadScript.Proofs.Cursor.Course

/-!
# Programs

A `Program` is a macro as a tree: rows, and blocks with a suffix that hold programs. It can be
*written* as rows of a script file, with braces around its blocks (`Program.written`), and it can be
*executed*, block by block (`Program.course`), which needs neither names nor jumps.

`Program.lines` are the lines that reading the written rows leaves of the outermost level, each
block that holds something become a jump to a generated name, and `Program.blocks` are the blocks
put aside with the numbers of their names.
-/

namespace PadScript

/-- A macro as a tree. -/
inductive Program where
  /-- There is nothing more. -/
  | done
  /-- A row, and what follows it. -/
  | row (line : Text) (rest : Program)
  /-- A block with the suffix behind its closing brace, and what follows it. -/
  | block (inner : Program) (suffix : Text) (rest : Program)
deriving DecidableEq, Repr

/-- A row that stands for itself: cleaning keeps it, and it is no jump, marker, brace or default. -/
structure Row.IsPlain (line : Text) : Prop where
  /-- Cleaning keeps it. -/
  clean : Row.clean? line = some line
  /-- It is one row. -/
  newline : '\n' ∉ line
  /-- It opens no block. -/
  opening : '{' ∉ line
  /-- It closes no block. -/
  closing : '}' ∉ line
  /-- It is no jump. -/
  jump : line.head? ≠ some '['
  /-- It is no marker. -/
  marker : line.head? ≠ some '<'
  /-- It declares no default. -/
  default : Text.after? Row.defaultWord line = none

instance (line : Text) : Decidable (Row.IsPlain line) :=
  decidable_of_iff
    (Row.clean? line = some line ∧ '\n' ∉ line ∧ '{' ∉ line ∧ '}' ∉ line ∧
      line.head? ≠ some '[' ∧ line.head? ≠ some '<' ∧ Text.after? Row.defaultWord line = none)
    ⟨fun ⟨h1, h2, h3, h4, h5, h6, h7⟩ => ⟨h1, h2, h3, h4, h5, h6, h7⟩,
      fun ⟨h1, h2, h3, h4, h5, h6, h7⟩ => ⟨h1, h2, h3, h4, h5, h6, h7⟩⟩

/-- A text that may stand behind a closing brace. -/
structure Row.IsSuffix (suffix : Text) : Prop where
  /-- It has no blanks. -/
  blank : ∀ c ∈ suffix, Text.isBlank c = false
  /-- It opens no block. -/
  opening : '{' ∉ suffix
  /-- It closes no block. -/
  closing : '}' ∉ suffix

instance (suffix : Text) : Decidable (Row.IsSuffix suffix) :=
  decidable_of_iff (suffix.all (!Text.isBlank ·) = true ∧ '{' ∉ suffix ∧ '}' ∉ suffix)
    ⟨fun ⟨h1, h2, h3⟩ => ⟨by simpa using h1, h2, h3⟩,
      fun ⟨h1, h2, h3⟩ => ⟨by simpa using h1, h2, h3⟩⟩

/-- A text that may stand in a marker as the name of a macro. -/
structure Row.IsName (name : Text) : Prop where
  /-- It has no spaces. -/
  space : ' ' ∉ name
  /-- It has no tabs. -/
  tab : '\t' ∉ name
  /-- It is on one row. -/
  newline : '\n' ∉ name

instance (name : Text) : Decidable (Row.IsName name) :=
  decidable_of_iff (' ' ∉ name ∧ '\t' ∉ name ∧ '\n' ∉ name)
    ⟨fun ⟨h1, h2, h3⟩ => ⟨h1, h2, h3⟩, fun ⟨h1, h2, h3⟩ => ⟨h1, h2, h3⟩⟩

namespace Program

/-- Every row and every suffix is one. -/
def WellFormed : Program → Prop
  | done => True
  | row line rest => Row.IsPlain line ∧ rest.WellFormed
  | block inner suffix rest => inner.WellFormed ∧ Row.IsSuffix suffix ∧ rest.WellFormed

instance decidableWellFormed : (p : Program) → Decidable p.WellFormed
  | done => isTrue trivial
  | row line rest =>
    have := decidableWellFormed rest
    inferInstanceAs (Decidable (Row.IsPlain line ∧ rest.WellFormed))
  | block inner suffix rest =>
    have := decidableWellFormed inner
    have := decidableWellFormed rest
    inferInstanceAs (Decidable (inner.WellFormed ∧ Row.IsSuffix suffix ∧ rest.WellFormed))

/-- There are no rows on the outermost level, and no blocks but empty ones. -/
def IsBlank : Program → Prop
  | done => True
  | row _ _ => False
  | block inner _ rest => inner = done ∧ rest.IsBlank

/-- The rows that write a program down. -/
def written : Program → List Text
  | done => []
  | row line rest => line :: rest.written
  | block inner suffix rest => ['{'] :: (inner.written ++ ('}' :: suffix) :: rest.written)

/-- The script file that writes a program down as a macro, every row ended by a newline. -/
def text (name : Text) (p : Program) : Text :=
  (('<' :: name ++ ['>']) :: p.written).flatMap (· ++ ['\n'])

/-- The course of a row. -/
def rowCourse (line : Text) : Course :=
  if line = Directive.bodyWord then .skip
  else
    match Text.after? Directive.execWord line with
    | some source => .exec source
    | none => .give line

/-- The course of a program: its rows in order, and each block as often as its suffix directs at
that moment. -/
def course : Program → Course
  | done => .skip
  | row line rest => (rowCourse line).andThen rest.course
  | block inner suffix rest =>
    (Course.repeatedBy (Directive.rounds suffix) inner.course).andThen rest.course

/-- The line of a jump to the block of a number. -/
def jumpLine (n : Nat) (suffix : Text) : Text := '[' :: generatedName n ++ ']' :: suffix

/-- The lines of the outermost level, the blocks numbered from `n` on. -/
def lines : (n : Nat) → Program → List Text
  | _, done => []
  | n, row line rest => line :: rest.lines n
  | n, block inner suffix rest =>
    if inner = done then rest.lines n else jumpLine n suffix :: rest.lines (n + 1)

/-- The blocks of the outermost level, numbered from `n` on. -/
def blocks : (n : Nat) → Program → List (Nat × Program)
  | _, done => []
  | n, row _ rest => rest.blocks n
  | n, block inner _ rest =>
    if inner = done then rest.blocks n else (n, inner) :: rest.blocks (n + 1)

theorem written_eq_nil_iff {p : Program} : p.written = [] ↔ p = done := by
  cases p <;> simp [written]

theorem isBlank_of_lines_eq_nil {p : Program} {n : Nat} (h : p.lines n = []) : p.IsBlank := by
  induction p generalizing n with
  | done => trivial
  | row line rest => simp [lines] at h
  | block inner suffix rest _ ih =>
    simp only [lines] at h
    split at h
    next hdone => exact ⟨hdone, ih h⟩
    next => simp at h

/-- Empty blocks do nothing. -/
theorem course_of_isBlank {p : Program} (h : p.IsBlank) : p.course = .skip := by
  induction p with
  | done => rfl
  | row line rest => exact h.elim
  | block inner suffix rest _ ih =>
    obtain ⟨rfl, hrest⟩ := h
    simp [course, ih hrest]

/-- The blocks are numbered one after another. -/
theorem map_fst_blocks (p : Program) (n : Nat) :
    (p.blocks n).map Prod.fst = List.range' n (p.blocks n).length := by
  induction p generalizing n with
  | done => rfl
  | row line rest ih => exact ih n
  | block inner suffix rest _ ih =>
    simp only [blocks]
    split
    next => exact ih n
    next => rw [List.map_cons, List.length_cons, List.range'_succ, ih (n + 1)]

theorem wellFormed_of_mem_blocks {p : Program} (hp : p.WellFormed) {n : Nat} {b : Nat × Program}
    (h : b ∈ p.blocks n) : b.2.WellFormed := by
  induction p generalizing n with
  | done => simp [blocks] at h
  | row line rest ih => exact ih hp.2 h
  | block inner suffix rest _ ih =>
    obtain ⟨hinner, -, hrest⟩ := hp
    simp only [blocks] at h
    split at h
    next => exact ih hrest h
    next =>
      rcases List.mem_cons.1 h with rfl | h
      · exact hinner
      · exact ih hrest h

end Program

end PadScript
