import PadScript.Json.Reader.Skip
import PadScript.Json.Reader.Value

/-!
# Reading records

A record is read from an object or from an array of its fields in order. In an object each known
field may stand once, in any order, and unknown members are passed over; an array may end early.
What a missing field stands for is left to the record's `finish`.

The readers of single fields place the faults of their value: a value of another kind is refused
where it ends, and an array or an object in its place where it begins.
-/

namespace PadScript.Json

/-- A field of a record under construction. -/
structure Field (σ : Type) where
  /-- The name of the field. -/
  name : Text
  /-- Reads the field's value into the record. -/
  read : σ → Reader σ

namespace Reader

/-- Refuses the value that comes next as being of another kind. A scalar is taken first. -/
def refuse {α : Type} : Reader α := place do
  match ← peek with
  | none => failNext
  | some 'n' => skip; word "ull".toList; failUnplaced
  | some 't' => skip; word "rue".toList; failUnplaced
  | some 'f' => skip; word "alse".toList; failUnplaced
  | some '"' => discard string; failUnplaced
  | some '[' => failUnplaced
  | some '{' => failUnplaced
  | some c => if c = '-' ∨ Number.isDigit c then discard number; failUnplaced else failNext

/-- A truth value. -/
def bool : Reader Bool := place do
  match ← peekPastSpace with
  | none => failNext
  | some 't' => skip; word "rue".toList; return true
  | some 'f' => skip; word "alse".toList; return false
  | some _ => refuse

/-- A string. -/
def text : Reader Text := place do
  match ← peekPastSpace with
  | none => failNext
  | some '"' => string
  | some _ => refuse

/-- A whole number within bounds. -/
def wholeNumber (least greatest : Int) : Reader Int := place do
  match ← peekPastSpace with
  | none => failNext
  | some c =>
    if c = '-' ∨ Number.isDigit c then
      match ← number with
      | .int n => if least ≤ n ∧ n ≤ greatest then return n else failUnplaced
      | .float _ => failUnplaced
    else refuse

/-- The value `null`. -/
def nothing : Reader Unit := place do
  match ← peekPastSpace with
  | none => failNext
  | some 'n' => skip; word "ull".toList
  | some _ => refuse

/-- A value that may be `null`. -/
def optional {α : Type} (r : Reader α) : Reader (Option α) := do
  match ← peekPastSpace with
  | some 'n' => skip; word "ull".toList; return none
  | _ => return some (← r)

/-- An object with any names, whose values are read by `r`. -/
def table {α : Type} (depth : Nat) (r : Reader α) : Reader (Members α) := place do
  match ← peekPastSpace with
  | none => failNext
  | some '{' =>
    if depth = 0 then failNext
    else
      skip
      closing (do members r true [] (← fuel)) closeObject
  | some _ => refuse

variable {σ : Type}

/-- Takes the members of a record up to its closing brace. `seen` holds the fields met so far. -/
def recordMembers (fields : List (Field σ)) (first : Bool) (seen : List Text) (record : σ) :
    (fuel : Nat) → Reader σ
  | 0 => failHere
  | fuel + 1 => do
    match ← memberName first with
    | none => return record
    | some name =>
      match fields.find? (·.name = name) with
      | some field =>
        if name ∈ seen then failUnplaced
        else
          colon
          let record ← field.read record
          recordMembers fields false (name :: seen) record fuel
      | none =>
        colon
        skipValue
        recordMembers fields false seen record fuel

/-- Takes the items of a record given as an array, as far as there are any. -/
def recordItems (first : Bool) (record : σ) : List (Field σ) → Reader σ
  | [] => return record
  | field :: fields => do
    if ← toItem first then
      let record ← field.read record
      recordItems false record fields
    else return record

/-- A record. `finish` refuses one whose required fields are missing. -/
def record {α : Type} (depth : Nat) (fields : List (Field σ)) (blank : σ) (finish : σ → Option α) :
    Reader α := place do
  let complete (r : Reader σ) : Reader α := do
    match finish (← r) with
    | some a => return a
    | none => failUnplaced
  match ← peekPastSpace with
  | none => failNext
  | some '[' =>
    if depth = 0 then failNext
    else
      skip
      closing (complete (recordItems true blank fields)) closeArray
  | some '{' =>
    if depth = 0 then failNext
    else
      skip
      closing (complete do recordMembers fields true [] blank (← fuel)) closeObject
  | some _ => refuse

/-- One of several names: a string, or an object with the name as its only member and the value
`null`. -/
def oneOf {α : Type} (depth : Nat) (names : List (Text × α)) : Reader α := do
  let named : Reader α := place do
    match ← peekPastSpace with
    | none => failNext
    | some '"' =>
      let name ← string
      match names.lookup name with
      | some a => return a
      | none => failUnplaced
    | some _ => refuse
  match ← peekPastSpace with
  | none => failNext
  | some '"' => named
  | some '{' =>
    if depth = 0 then failNext
    else
      skip
      let a ← named
      colon
      nothing
      match ← peekPastSpace with
      | some '}' => skip; return a
      | _ => failHere
  | some _ => failNext

end Reader

end PadScript.Json
