import PadScript.Json.Reader.Number
import PadScript.Json.Reader.String

/-!
# Reading JSON values

`Reader.value` reads a value that is kept. Arrays and objects that are kept nest at most
`greatestDepth` deep.
-/

namespace PadScript.Json.Reader

/-- Takes the bracket that closes an array. -/
def closeArray : Reader Unit := do
  match ← peekPastSpace with
  | some ']' => skip
  | some ',' =>
    skip
    discard peekPastSpace
    failNext
  | _ => failNext

/-- Takes the brace that closes an object. -/
def closeObject : Reader Unit := do
  match ← peekPastSpace with
  | some '}' => skip
  | _ => failNext

/-- Goes to the next item of an array; false at its end. -/
def toItem (first : Bool) : Reader Bool := do
  match ← peekPastSpace with
  | none => failNext
  | some ']' => return false
  | some c =>
    if first then return true
    else if c = ',' then
      skip
      match ← peekPastSpace with
      | some ']' => failNext
      | some _ => return true
      | none => failNext
    else failNext

/-- Goes to the next member of an object and takes its name; `none` at the end of the object. -/
def memberName (first : Bool) : Reader (Option Text) := do
  match ← peekPastSpace with
  | none => failNext
  | some '}' => return none
  | some c =>
    let quote ← do
      if first then pure (some c)
      else if c = ',' then
        skip
        peekPastSpace
      else failNext
    match quote with
    | some '"' => return some (← string)
    | _ => failNext

/-- Takes the colon after the name of a member. -/
def colon : Reader Unit := do
  match ← peekPastSpace with
  | some ':' => skip
  | _ => failNext

/-- Takes the items of an array up to its closing bracket. -/
def items {α : Type} (item : Reader α) (first : Bool) : (fuel : Nat) → Reader (List α)
  | 0 => failHere
  | fuel + 1 => do
    if ← toItem first then
      let a ← item
      return a :: (← items item false fuel)
    else return []

/-- Takes the members of an object up to its closing brace. -/
def members {α : Type} (value : Reader α) (first : Bool) (seen : Members α) :
    (fuel : Nat) → Reader (Members α)
  | 0 => failHere
  | fuel + 1 => do
    match ← memberName first with
    | none => return seen
    | some name =>
      colon
      let v ← value
      members value false (Members.insert name v seen) fuel

/-- How many arrays and objects a kept value may have around it, its own included. -/
def greatestDepth : Nat := 127

/-- Takes a value to keep, with at most `depth` arrays and objects inside each other. -/
def value (depth : Nat) : Reader Json := do
  match ← peekPastSpace with
  | none => failNext
  | some 'n' => skip; word "ull".toList; return .null
  | some 't' => skip; word "rue".toList; return .bool true
  | some 'f' => skip; word "alse".toList; return .bool false
  | some '"' => return .str (← string)
  | some '[' =>
    match depth with
    | depth + 1 =>
      skip
      return .arr (← closing (do items (value depth) true (← fuel)) closeArray)
    | 0 => failNext
  | some '{' =>
    match depth with
    | depth + 1 =>
      skip
      return .obj (← closing (do members (value depth) true [] (← fuel)) closeObject)
    | 0 => failNext
  | some c => if c = '-' ∨ Number.isDigit c then return .number (← number) else failNext

end PadScript.Json.Reader
