import PadScript.Script.Value

/-!
# Tokens of expressions

Rows of a script hold no blanks, so `|space|` stands for one in an expression; `decodeSpaces` writes
it out. `Token.scan` then cuts the text into tokens, or names the first fault.

`Token.scanOne_shrinks` is why scanning ends: every token takes a character.
-/

namespace PadScript

/-- Why an expression has no value. -/
inductive EvalError where
  /-- A character that cannot begin a token. -/
  | unexpectedChar
  /-- A token where the grammar does not allow it. -/
  | unexpectedToken
  /-- The text ends inside an expression. -/
  | unexpectedEnd
  /-- A text without its closing quote. -/
  | unterminatedString
  /-- A name that is not bound. -/
  | unbound
  /-- An operator on values it is not for. -/
  | typeMismatch
  /-- A division or a remainder by zero. -/
  | divisionByZero
  /-- Parentheses and prefix operators inside each other, too many. -/
  | tooDeep
deriving DecidableEq, Repr

/-- The wording of an error. -/
def EvalError.message : EvalError → String
  | .unexpectedChar => "unexpected character"
  | .unexpectedToken => "unexpected token"
  | .unexpectedEnd => "unexpected end of expression"
  | .unterminatedString => "unterminated string"
  | .unbound => "unbound name"
  | .typeMismatch => "type mismatch"
  | .divisionByZero => "division by zero"
  | .tooDeep => "expression nested too deeply"

/-- The comparisons. -/
inductive Comparison where
  | eq | ne | lt | gt | le | ge
deriving DecidableEq, Repr

/-- The operations on numbers; `add` also joins texts. -/
inductive Arithmetic where
  | add | sub | mul | div | rem
deriving DecidableEq, Repr

/-- The operators. -/
inductive Operator where
  /-- A comparison. -/
  | comparison (c : Comparison)
  /-- An operation on numbers; `sub` is also the sign of a number. -/
  | arithmetic (a : Arithmetic)
  /-- Conjunction. -/
  | and
  /-- Disjunction. -/
  | or
  /-- Negation. -/
  | not
deriving DecidableEq, Repr

/-- A token of an expression. -/
inductive Token where
  /-- A number. -/
  | number (x : Float)
  /-- A text between quotes. -/
  | str (t : Text)
  /-- A truth value. -/
  | bool (b : Bool)
  /-- A name. -/
  | ident (name : Text)
  /-- An operator. -/
  | op (o : Operator)
  /-- The sign `=` of an assignment. -/
  | assign
  /-- An opening parenthesis. -/
  | lparen
  /-- A closing parenthesis. -/
  | rparen
  /-- A semicolon. -/
  | semi

/-- The spelling of a blank in a row. -/
def spaceWord : Text := "|space|".toList

/-- The text with its blanks written out. -/
def decodeSpaces (t : Text) : Text := Text.replace spaceWord [' '] t

namespace Token

/-- The characters of a number. -/
def isNumberChar (c : Char) : Bool := Number.isDigit c || c == '.'

/-- The characters that begin a name. -/
def isWordStart (c : Char) : Bool := c.isAlpha || c == '_'

/-- The characters of a name. -/
def isWordChar (c : Char) : Bool := c.isAlphanum || c == '_'

/-- The token that a word is. -/
def ofWord (w : Text) : Token :=
  if w = "and".toList then .op .and
  else if w = "or".toList then .op .or
  else if w = "not".toList then .op .not
  else if Text.eqIgnoreCase w "true".toList then .bool true
  else if Text.eqIgnoreCase w "false".toList then .bool false
  else .ident w

/-- The tokens that one character spells. -/
def ofChar? : Char → Option Token
  | '(' => some .lparen
  | ')' => some .rparen
  | ';' => some .semi
  | '+' => some (.op (.arithmetic .add))
  | '-' => some (.op (.arithmetic .sub))
  | '*' => some (.op (.arithmetic .mul))
  | '/' => some (.op (.arithmetic .div))
  | '%' => some (.op (.arithmetic .rem))
  | _ => none

/-- The tokens that one character spells alone, and together with a `=` behind it. -/
def ofCharEquals? : Char → Option (Token × Token)
  | '=' => some (.assign, .op (.comparison .eq))
  | '!' => some (.op .not, .op (.comparison .ne))
  | '<' => some (.op (.comparison .lt), .op (.comparison .le))
  | '>' => some (.op (.comparison .gt), .op (.comparison .ge))
  | _ => none

/-- The tokens that one character spells when it is doubled. -/
def ofCharTwice? : Char → Option Token
  | '&' => some (.op .and)
  | '|' => some (.op .or)
  | _ => none

/-- The rest of a text that begins with `c`, and all of it otherwise. -/
def skipChar (c : Char) : Text → Bool × Text
  | [] => (false, [])
  | d :: rest => if d = c then (true, rest) else (false, d :: rest)

/-- A text up to its closing quote. -/
def scanQuoted (quote : Char) (rest : Text) : Except EvalError (Option Token × Text) :=
  match Text.cut? quote rest with
  | some (t, rest) => .ok (some (.str t), rest)
  | none => .error .unterminatedString

/-- A number or a word, from its first character on. -/
def scanRun (c : Char) (rest : Text) : Except EvalError (Option Token × Text) :=
  if isNumberChar c then
    match Number.readFloat? (c :: rest.takeWhile isNumberChar) with
    | some x => .ok (some (.number x), rest.dropWhile isNumberChar)
    | none => .error .unexpectedChar
  else if isWordStart c then
    .ok (some (ofWord (c :: rest.takeWhile isWordChar)), rest.dropWhile isWordChar)
  else .error .unexpectedChar

/-- The token that begins with `c`, unless it is a blank, and the text behind it. -/
def scanOne (c : Char) (rest : Text) : Except EvalError (Option Token × Text) :=
  if c = ' ' ∨ c = '\t' then .ok (none, rest)
  else if c = '\'' ∨ c = '"' then scanQuoted c rest
  else
    match ofChar? c, ofCharEquals? c, ofCharTwice? c with
    | some t, _, _ => .ok (some t, rest)
    | none, some (alone, joined), _ =>
      let (equals, rest) := skipChar '=' rest
      .ok (some (if equals then joined else alone), rest)
    | none, none, some t =>
      let (twice, rest) := skipChar c rest
      if twice then .ok (some t, rest) else .error .unexpectedChar
    | none, none, none => scanRun c rest

theorem length_skipChar_le (c : Char) (t : Text) : (skipChar c t).2.length ≤ t.length := by
  cases t with
  | nil => simp [skipChar]
  | cons d rest =>
    simp only [skipChar]
    split <;> simp

theorem length_scanQuoted_le {quote : Char} {rest rest' : Text} {t : Option Token}
    (h : scanQuoted quote rest = .ok (t, rest')) : rest'.length ≤ rest.length := by
  simp only [scanQuoted] at h
  split at h
  next s r hc =>
    simp only [Except.ok.injEq, Prod.mk.injEq] at h
    rw [← h.2]
    exact Text.length_le_of_cut? hc
  next => simp at h

theorem length_scanRun_le {c : Char} {rest rest' : Text} {t : Option Token}
    (h : scanRun c rest = .ok (t, rest')) : rest'.length ≤ rest.length := by
  have dropNumber := (List.dropWhile_suffix (l := rest) isNumberChar).length_le
  have dropWord := (List.dropWhile_suffix (l := rest) isWordChar).length_le
  simp only [scanRun] at h
  split at h
  · split at h
    · simp only [Except.ok.injEq, Prod.mk.injEq] at h
      rw [← h.2]
      exact dropNumber
    · simp at h
  · split at h
    · simp only [Except.ok.injEq, Prod.mk.injEq] at h
      rw [← h.2]
      exact dropWord
    · simp at h

/-- A token leaves no more than what stood behind its first character. -/
theorem scanOne_shrinks {c : Char} {rest rest' : Text} {t : Option Token}
    (h : scanOne c rest = .ok (t, rest')) : rest'.length ≤ rest.length := by
  simp only [scanOne] at h
  split at h
  · simp only [Except.ok.injEq, Prod.mk.injEq] at h
    simp [h.2]
  split at h
  · exact length_scanQuoted_le h
  split at h
  · simp only [Except.ok.injEq, Prod.mk.injEq] at h
    simp [h.2]
  · simp only [Except.ok.injEq, Prod.mk.injEq] at h
    rw [← h.2]
    exact length_skipChar_le ..
  · split at h
    · simp only [Except.ok.injEq, Prod.mk.injEq] at h
      rw [← h.2]
      exact length_skipChar_le ..
    · simp at h
  · exact length_scanRun_le h

/-- The tokens of a text, or its first fault. -/
def scan : Text → Except EvalError (List Token)
  | [] => .ok []
  | c :: rest =>
    match _h : scanOne c rest with
    | .error e => .error e
    | .ok (t, rest') =>
      match scan rest' with
      | .error e => .error e
      | .ok ts => .ok (t.toList ++ ts)
termination_by t => t.length
decreasing_by
  have := scanOne_shrinks _h
  simp only [List.length_cons]
  omega

end Token

end PadScript
