import PadScript.Json.Reader.Basic

/-!
# Reading JSON strings

`Reader.string` takes a string with its escapes; the two halves of a surrogate pair are two escapes
and one character.
-/

namespace PadScript.Json.Reader

/-- The value of a hexadecimal digit. -/
def hexDigit? (c : Char) : Option Nat :=
  if '0' ≤ c ∧ c ≤ '9' then some (c.toNat - '0'.toNat)
  else if 'a' ≤ c ∧ c ≤ 'f' then some (c.toNat - 'a'.toNat + 10)
  else if 'A' ≤ c ∧ c ≤ 'F' then some (c.toNat - 'A'.toNat + 10)
  else none

/-- Takes four hexadecimal digits. -/
def hexUnit : Reader Nat := do
  let s ← get
  if s.byteSize < 4 then
    set (s.skipBytes s.byteSize)
    failHere
  else
    set (s.skipBytes 4)
    match (s.rest.take 4).mapM hexDigit? with
    | some digits => return digits.foldl (fun n d => 16 * n + d) 0
    | none => failHere

/-- Takes `c`, or the next character and refuses it. -/
def expectNext (c : Char) : Reader Unit := do
  match ← peek with
  | none => failHere
  | some d =>
    skip
    if c = d then return else failHere

/-- Takes the rest of an escape `\u`. Surrogates come in pairs. -/
def unicodeEscape : Reader Char := do
  let n ← hexUnit
  if 0xDC00 ≤ n ∧ n ≤ 0xDFFF then failHere
  else if n < 0xD800 ∨ 0xDBFF < n then return Char.ofNat n
  else
    expectNext '\\'
    expectNext 'u'
    let m ← hexUnit
    if m < 0xDC00 ∨ 0xDFFF < m then failHere
    else return Char.ofNat ((n - 0xD800) * 0x400 + (m - 0xDC00) + 0x10000)

/-- The character that an escape letter stands for. -/
def simpleEscape? : Char → Option Char
  | '"' => some '"'
  | '\\' => some '\\'
  | '/' => some '/'
  | 'b' => some '\x08'
  | 'f' => some '\x0c'
  | 'n' => some '\n'
  | 'r' => some '\r'
  | 't' => some '\t'
  | _ => none

/-- Takes the rest of an escape. -/
def escape : Reader Char := do
  match ← next with
  | none => failHere
  | some 'u' => unicodeEscape
  | some c =>
    match simpleEscape? c with
    | some d => return d
    | none => failHere

/-- Takes the rest of a string after its opening quote. `fuel` bounds its length. -/
def stringRest : (fuel : Nat) → Reader Text
  | 0 => failHere
  | fuel + 1 => do
    match ← next with
    | none => failHere
    | some '"' => return []
    | some '\\' =>
      let c ← escape
      return c :: (← stringRest fuel)
    | some c => if c.toNat < 0x20 then failHere else return c :: (← stringRest fuel)

/-- Takes a string from its opening quote on. -/
def string : Reader Text := do
  skip
  stringRest (← fuel)

end PadScript.Json.Reader
