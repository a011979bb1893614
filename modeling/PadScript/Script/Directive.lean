import PadScript.Script.Params

/-!
# Directives

A row of a track is a `Directive`. `[label]` enters the track of a label, once, or as a suffix says:
`?condition` enters it if the condition holds, `*count` as often as the count says. `body:` marks
where the next cycle begins, `EXEC>` rows run statements, and any other row is played.
-/

namespace PadScript

/-- What a row of a track asks for. -/
inductive Directive where
  /-- Entering the track of a label, as the suffix directs. -/
  | jump (label suffix : Text)
  /-- Marking the start of the next cycle. -/
  | body
  /-- Running statements. -/
  | exec (source : Text)
  /-- Playing the row. -/
  | action (line : Text)
deriving DecidableEq, Repr

namespace Directive

/-- The row that marks the start of a cycle. -/
def bodyWord : Text := "body:".toList

/-- The word before statements. -/
def execWord : Text := "EXEC>".toList

/-- The label and the suffix of a jump row. -/
def jump? : Text → Option (Text × Text)
  | '[' :: rest => Text.cut? ']' rest
  | _ => none

/-- What a row asks for. -/
def ofLine (line : Text) : Directive :=
  match jump? line with
  | some (label, suffix) => .jump label suffix
  | none =>
    if line = bodyWord then .body
    else
      match Text.after? execWord line with
      | some source => .exec source
      | none => .action line

/-- How often a jump with this suffix enters its track. -/
def times (p : Params) : (suffix : Text) → Int
  | '?' :: condition => if p.holds condition then 1 else 0
  | '*' :: count => p.countOr count 1
  | _ => 1

end Directive

end PadScript
