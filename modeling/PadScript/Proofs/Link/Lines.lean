import Mathlib.Data.List.Induction
import PadScript.Play.CommandLink

/-!
# The line that is open

The reader of the command link remembers at most 512 bytes of a line, or only that there were more.
It gives what it would give with the whole line in hand: `LineReader.openLine` is all that has come
of the line since the last newline or failure, and the reader is always the one for that line.

* `LineReader.openLine_append_bytes` and its neighbours : how the open line grows and ends.
* `LineReader.feed_ofOpen` : **what the reader completes depends on the open line alone.**
* `LineReader.read_eq_ok_iff` : which lines are texts, and which.
-/

namespace PadScript

namespace LineReader

/-! ### Which line is open -/

/-- What is open of a line when one more item has come. -/
def push (line : List UInt8) : UartItem → List UInt8
  | .byte b => if b = newline then [] else line ++ [b]
  | .failure _ => []

/-- What is open of a line when some items have come: the bytes since the last newline or
failure. -/
def openLine (items : List UartItem) : List UInt8 := items.foldl push []

theorem openLine_concat (items : List UartItem) (item : UartItem) :
    openLine (items ++ [item]) = push (openLine items) item := by
  rw [openLine, List.foldl_append]
  rfl

theorem openLine_newline (items : List UartItem) : openLine (items ++ [.byte newline]) = [] :=
  openLine_concat ..

theorem openLine_failure (items : List UartItem) (e : UartError) :
    openLine (items ++ [.failure e]) = [] :=
  openLine_concat ..

theorem openLine_append_bytes (items : List UartItem) {bytes : List UInt8} (h : newline ∉ bytes) :
    openLine (items ++ bytes.map .byte) = openLine items ++ bytes := by
  induction bytes generalizing items with
  | nil => simp
  | cons b bytes ih =>
    rw [List.mem_cons, not_or] at h
    have hpush : openLine (items ++ [.byte b]) = openLine items ++ [b] := by
      rw [openLine_concat, push, if_neg (Ne.symm h.1)]
    calc openLine (items ++ (b :: bytes).map .byte)
        = openLine ((items ++ [.byte b]) ++ bytes.map .byte) := by simp
      _ = openLine items ++ b :: bytes := by rw [ih _ h.2, hpush, List.append_assoc]; rfl

/-! ### What is read -/

/-- The reader that has come this far with a line. -/
def ofOpen (line : List UInt8) : LineReader :=
  if line.length ≤ longest then .collecting line else .discarding

/-- What a whole line is read as. -/
def read (line : List UInt8) : Except LinkError Text :=
  if line.length ≤ longest then finish line else .error .overflow

/-- What an item completes behind the open line. -/
def completed? (line : List UInt8) : UartItem → Option (Except LinkError Text)
  | .byte b => if b = newline then some (read line) else none
  | .failure e => some (.error (.ofUart e))

/-- **What the reader completes depends on the open line alone.** -/
theorem feed_ofOpen (line : List UInt8) (item : UartItem) :
    (ofOpen line).feed item = (ofOpen (push line item), completed? line item) := by
  cases item with
  | failure e => simp [feed, push, completed?, ofOpen]
  | byte b =>
    by_cases hlong : line.length ≤ longest
    · by_cases hb : b = newline
      · simp [ofOpen, feed, push, completed?, read, hlong, hb]
      · by_cases hroom : line.length < longest
        · simp [ofOpen, feed, push, completed?, hlong, hb, hroom, Nat.succ_le_of_lt hroom]
        · have hfull : ¬line.length + 1 ≤ longest := hroom
          simp [ofOpen, feed, push, completed?, hlong, hb, hroom, hfull]
    · have hfull : ¬line.length + 1 ≤ longest := fun h => hlong (Nat.le_of_succ_le h)
      by_cases hb : b = newline
      · simp [ofOpen, feed, push, completed?, read, hlong, hb]
      · simp [ofOpen, feed, push, completed?, hlong, hb, hfull]

/-- A line, and the line without the carriage return at its end, if there is one. -/
def IsBare (line bare : List UInt8) : Prop :=
  line = bare ++ [carriageReturn] ∨ line = bare ∧ line.getLast? ≠ some carriageReturn

theorem isBare_iff {line bare : List UInt8} :
    IsBare line bare ↔
      (if line.getLast? = some carriageReturn then line.dropLast else line) = bare := by
  split
  next hlast =>
    obtain ⟨front, rfl⟩ := List.getLast?_eq_some_iff.1 hlast
    simp [IsBare]
  next hlast =>
    constructor
    · rintro (rfl | ⟨rfl, -⟩)
      · exact absurd (by simp) hlast
      · rfl
    · rintro rfl
      exact .inr ⟨rfl, hlast⟩

theorem exists_isBare (line : List UInt8) : ∃ bare, IsBare line bare := ⟨_, isBare_iff.2 rfl⟩

theorem IsBare.finish_eq {line bare : List UInt8} (h : IsBare line bare) :
    finish line = match Text.ofUtf8? bare with
      | some text => .ok text
      | none => .error .utf8 := by
  rw [← isBare_iff.1 h]
  rfl

theorem read_eq_ok_iff {line : List UInt8} {text : Text} :
    read line = .ok text ↔ line.length ≤ longest ∧ IsBare line (Text.toUtf8 text) := by
  obtain ⟨bare, hbare⟩ := exists_isBare line
  have hunique : IsBare line (Text.toUtf8 text) ↔ bare = Text.toUtf8 text := by
    rw [isBare_iff, ← isBare_iff.1 hbare]
  rw [hunique, read, hbare.finish_eq, ← Text.ofUtf8?_eq_some_iff]
  split
  next hlong => cases Text.ofUtf8? bare <;> simp [hlong]
  next hlong => simp [hlong]

end LineReader

end PadScript
