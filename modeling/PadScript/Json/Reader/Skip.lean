import PadScript.Json.Reader.Number
import PadScript.Json.Reader.String

/-!
# Passing over JSON values

`Reader.skipValue` passes over a value that is not kept. It checks only the grammar, so it takes
numbers of any size, unpaired surrogates and any depth.
-/

namespace PadScript.Json.Reader

/-- Passes over the rest of an escape. -/
def skipEscape : Reader Unit := do
  match ← next with
  | none => failHere
  | some 'u' => discard hexUnit
  | some c => if (simpleEscape? c).isSome then return else failHere

/-- Passes over the rest of a string after its opening quote. -/
def skipStringRest : (fuel : Nat) → Reader Unit
  | 0 => failHere
  | fuel + 1 => do
    match ← peek with
    | none => failHere
    | some '"' => skip
    | some '\\' =>
      skip
      skipEscape
      skipStringRest fuel
    | some c =>
      if c.toNat < 0x20 then failHere
      else
        skip
        skipStringRest fuel

/-- Passes over a string from its opening quote on. -/
def skipString : Reader Unit := do
  skip
  skipStringRest (← fuel)

/-- Passes over an exponent from its letter on. -/
def skipExponent : Reader Unit := do
  skip
  match ← peek with
  | some '+' => skip
  | some '-' => skip
  | _ => pure ()
  match ← next with
  | none => failHere
  | some c => if Number.isDigit c then discard digitRun else failHere

/-- Passes over what may follow the digits of a number. -/
def skipFloatEnd : Reader Unit := do
  match ← peek with
  | some 'e' => skipExponent
  | some 'E' => skipExponent
  | _ => return

/-- Passes over a number. -/
def skipNumber : Reader Unit := do
  if (← peek) = some '-' then skip
  match ← next with
  | none => failHere
  | some '0' => if (← peekDigit?).isSome then failNext
  | some c => if Number.isDigit c then discard digitRun else failHere
  match ← peek with
  | some '.' =>
    skip
    if (← digitRun).isEmpty then failNext
    skipFloatEnd
  | _ => skipFloatEnd

/-- The bracket that an open array or object was opened with. -/
inductive Bracket where
  /-- An open array. -/
  | array
  /-- An open object. -/
  | object
deriving DecidableEq, Repr

/-- Passes over a value that opens no bracket; the bracket otherwise. -/
def skipScalar : Reader (Option Bracket) := do
  match ← peekPastSpace with
  | none => failNext
  | some 'n' => skip; word "ull".toList; return none
  | some 't' => skip; word "rue".toList; return none
  | some 'f' => skip; word "alse".toList; return none
  | some '"' => skipString; return none
  | some '[' => skip; return some .array
  | some '{' => skip; return some .object
  | some c =>
    if c = '-' ∨ Number.isDigit c then
      skipNumber
      return none
    else failNext

/-- Passes over closing brackets. Gives the brackets that stay open, with the one that goes on with
a further value in front. -/
def skipClosers : List Bracket → (afterValue : Bool) → Reader (List Bracket)
  | [], _ => return []
  | bracket :: outer, afterValue => do
    let closer := match bracket with | .array => ']' | .object => '}'
    match ← peekPastSpace with
    | none => failNext
    | some c =>
      if c = ',' ∧ afterValue then
        skip
        return bracket :: outer
      else if c = closer then
        skip
        skipClosers outer true
      else if afterValue then failNext
      else return bracket :: outer

/-- Passes over the name of a member and its colon. -/
def skipName : Reader Unit := do
  match ← peekPastSpace with
  | some '"' => skipString
  | _ => failNext
  match ← peekPastSpace with
  | some ':' => skip
  | _ => failNext

/-- Passes over values until no bracket is open. -/
def skipOpen (openBrackets : List Bracket) : (fuel : Nat) → Reader Unit
  | 0 => failHere
  | fuel + 1 => do
    let opened ← skipScalar
    let still ←
      match opened with
      | some bracket => skipClosers (bracket :: openBrackets) false
      | none => skipClosers openBrackets true
    match still with
    | [] => return
    | .array :: _ => skipOpen still fuel
    | .object :: _ =>
      skipName
      skipOpen still fuel

/-- Passes over a value that is not kept. -/
def skipValue : Reader Unit := do skipOpen [] (← fuel)

end PadScript.Json.Reader
