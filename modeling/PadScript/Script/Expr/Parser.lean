import PadScript.Script.Expr.Basic

/-!
# Parsing expressions

The grammar, from the loosest level to the tightest:

* `or` of `and` of `not` levels, each joined from the left;
* at most one comparison of two sums;
* sums of products of signed operands, joined from the left;
* numbers, texts, truth values, names and parenthesised expressions.

An `ExprParser` takes an expression from the front of a list of tokens and leaves fewer tokens than
it found. `Levels` holds the three levels that can stand inside an expression (behind `not`, behind
a sign and between parentheses); `Levels.withRoom n` are these levels with room for `n` more
nestings, built from the levels with room for `n - 1`, so the bound on nesting is what the recursion
runs on.
-/

namespace PadScript

/-- An expression from the front of the tokens, and the tokens behind it. -/
structure ExprParser where
  /-- Takes the expression. -/
  run : List Token → Except EvalError (Expr × List Token)
  /-- An expression has at least one token. -/
  shrinks : ∀ {ts e rest}, run ts = .ok (e, rest) → rest.length < ts.length

namespace ExprParser

/-- The parser that refuses for one reason. -/
def fail (reason : EvalError) : ExprParser where
  run _ := .error reason
  shrinks h := by simp at h

/-- Goes on with `operand` for as long as the next token joins two operands. -/
def chainRest (join? : Token → Option (Expr → Expr → Expr)) (operand : ExprParser) (left : Expr) :
    List Token → Except EvalError (Expr × List Token)
  | [] => .ok (left, [])
  | t :: ts =>
    match join? t with
    | none => .ok (left, t :: ts)
    | some join =>
      match _h : operand.run ts with
      | .error e => .error e
      | .ok (right, rest) => chainRest join? operand (join left right) rest
termination_by ts => ts.length
decreasing_by
  have := operand.shrinks _h
  simp only [List.length_cons]
  omega

theorem length_chainRest_le {join? : Token → Option (Expr → Expr → Expr)} {operand : ExprParser}
    {left e : Expr} {ts rest : List Token} (h : chainRest join? operand left ts = .ok (e, rest)) :
    rest.length ≤ ts.length := by
  fun_induction chainRest join? operand left ts with
  | case1 => simp_all
  | case2 => simp_all
  | case3 => simp_all
  | case4 left t ts join hjoin right rest' hrun ih =>
    have := operand.shrinks hrun
    have := ih h
    simp only [List.length_cons]
    omega

/-- Operands joined from the left. -/
def chain (join? : Token → Option (Expr → Expr → Expr)) (operand : ExprParser) : ExprParser where
  run ts :=
    match operand.run ts with
    | .error e => .error e
    | .ok (left, rest) => chainRest join? operand left rest
  shrinks {ts e rest} h := by
    split at h
    · simp at h
    next left rest' hrun =>
      have := operand.shrinks hrun
      have := length_chainRest_le h
      omega

/-- Two operands with a joining token between them, or the first alone. -/
def pair (join? : Token → Option (Expr → Expr → Expr)) (operand : ExprParser) : ExprParser where
  run ts :=
    match operand.run ts with
    | .error e => .error e
    | .ok (left, []) => .ok (left, [])
    | .ok (left, t :: rest) =>
      match join? t with
      | none => .ok (left, t :: rest)
      | some join =>
        match operand.run rest with
        | .error e => .error e
        | .ok (right, rest) => .ok (join left right, rest)
  shrinks {ts e rest} h := by
    split at h
    · simp at h
    next left hrun =>
      have := operand.shrinks hrun
      simp_all
    next left t rest' hrun =>
      have := operand.shrinks hrun
      split at h
      · simp only [Except.ok.injEq, Prod.mk.injEq] at h
        rw [← h.2]
        exact this
      · split at h
        · simp at h
        next right rest'' hrun' =>
          have := operand.shrinks hrun'
          simp_all only [Except.ok.injEq, Prod.mk.injEq, List.length_cons]
          omega

/-- The operator of a token. -/
def operator? : Token → Option Operator
  | .op o => some o
  | _ => none

/-- A nested operand behind the operator `o`, or what `otherwise` takes. -/
def behind (o : Operator) (build : Expr → Expr) (nested otherwise : ExprParser) : ExprParser where
  run
    | [] => otherwise.run []
    | t :: ts =>
      if operator? t = some o then
        match nested.run ts with
        | .error e => .error e
        | .ok (e, rest) => .ok (build e, rest)
      else otherwise.run (t :: ts)
  shrinks {ts e rest} h := by
    split at h
    · exact otherwise.shrinks h
    · split at h
      · split at h
        · simp at h
        next e' rest' hrun =>
          have := nested.shrinks hrun
          simp_all only [Except.ok.injEq, Prod.mk.injEq, List.length_cons]
          omega
      · exact otherwise.shrinks h

/-- A value, a name, or a nested expression between parentheses. -/
def primary (nested : ExprParser) : ExprParser where
  run
    | [] => .error .unexpectedEnd
    | .number x :: ts => .ok (.literal (.number x), ts)
    | .str t :: ts => .ok (.literal (.str t), ts)
    | .bool b :: ts => .ok (.literal (.bool b), ts)
    | .ident n :: ts => .ok (.name n, ts)
    | .lparen :: ts =>
      match nested.run ts with
      | .error e => .error e
      | .ok (_, []) => .error .unexpectedEnd
      | .ok (e, .rparen :: rest) => .ok (e, rest)
      | .ok (_, _ :: _) => .error .unexpectedToken
    | _ :: _ => .error .unexpectedToken
  shrinks {ts e rest} h := by
    split at h
    · simp at h
    · simp_all
    · simp_all
    · simp_all
    · simp_all
    · split at h
      · simp at h
      · simp at h
      next e' rest' hrun =>
        have := nested.shrinks hrun
        simp_all only [Except.ok.injEq, Prod.mk.injEq, List.length_cons]
        omega
      · simp at h
    · simp at h

/-! ### The joining tokens of each level -/

/-- Disjunction. -/
def joinOr? : Token → Option (Expr → Expr → Expr)
  | .op .or => some .or
  | _ => none

/-- Conjunction. -/
def joinAnd? : Token → Option (Expr → Expr → Expr)
  | .op .and => some .and
  | _ => none

/-- Comparisons. -/
def joinComparison? : Token → Option (Expr → Expr → Expr)
  | .op (.comparison c) => some (.comparison c)
  | _ => none

/-- Addition and subtraction. -/
def joinSum? : Token → Option (Expr → Expr → Expr)
  | .op (.arithmetic .add) => some (.arithmetic .add)
  | .op (.arithmetic .sub) => some (.arithmetic .sub)
  | _ => none

/-- Multiplication, division and remainder. -/
def joinProduct? : Token → Option (Expr → Expr → Expr)
  | .op (.arithmetic .mul) => some (.arithmetic .mul)
  | .op (.arithmetic .div) => some (.arithmetic .div)
  | .op (.arithmetic .rem) => some (.arithmetic .rem)
  | _ => none

end ExprParser

/-- The levels of the grammar that can stand in a nested place. -/
structure Levels where
  /-- A signed operand. -/
  signed : ExprParser
  /-- A negation or a comparison. -/
  negated : ExprParser
  /-- A whole expression. -/
  whole : ExprParser

namespace Levels

open ExprParser

/-- The levels whose nested places are filled from `inner`. -/
def around (inner : Levels) : Levels :=
  let signed := behind (.arithmetic .sub) .neg inner.signed (primary inner.whole)
  let sum := chain joinSum? (chain joinProduct? signed)
  let negated := behind .not .not inner.negated (pair joinComparison? sum)
  { signed, negated, whole := chain joinOr? (chain joinAnd? negated) }

/-- No room for another nesting. -/
def full : Levels := ⟨fail .tooDeep, fail .tooDeep, fail .tooDeep⟩

/-- The levels with room for `n` nestings. -/
def withRoom : Nat → Levels
  | 0 => around full
  | n + 1 => around (withRoom n)

end Levels

namespace Expr

/-- How deep parentheses and prefix operators may nest. -/
def deepestNesting : Nat := 32

/-- The parser of expressions. -/
def parser : ExprParser := (Levels.withRoom deepestNesting).whole

/-- The expression that the tokens spell. -/
def ofTokens (ts : List Token) : Except EvalError Expr :=
  match parser.run ts with
  | .error e => .error e
  | .ok (e, []) => .ok e
  | .ok (_, _ :: _) => .error .unexpectedToken

end Expr

/-- The value of an expression given as text. -/
def evaluate (source : Text) (b : Bindings) : Except EvalError Value := do
  let ts ← Token.scan (decodeSpaces source)
  let e ← Expr.ofTokens ts
  e.eval b

end PadScript
