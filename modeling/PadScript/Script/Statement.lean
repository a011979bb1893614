import PadScript.Script.Expr.Parser

/-!
# Statements

A source is a row of statements with semicolons between them: `name = expression` binds the name,
and an expression alone is computed and forgotten. `execute` runs them in order up to the first
fault; what the statements before it have bound stays bound.
-/

namespace PadScript

namespace Statements

/-- Runs the statements that the tokens spell. -/
def run (ts : List Token) (b : Bindings) : Bindings × Except EvalError Unit :=
  match ts with
  | [] => (b, .ok ())
  | .semi :: rest => run rest b
  | .ident name :: .assign :: rest =>
    match _h : Expr.parser.run rest with
    | .error e => (b, .error e)
    | .ok (e, rest') =>
      match e.eval b with
      | .error e => (b, .error e)
      | .ok v => next rest' (b.insert name v)
  | t :: rest =>
    match _h : Expr.parser.run (t :: rest) with
    | .error e => (b, .error e)
    | .ok (e, rest') =>
      match e.eval b with
      | .error e => (b, .error e)
      | .ok _ => next rest' b
termination_by 2 * ts.length
decreasing_by
  · simp only [List.length_cons]; omega
  · have := Expr.parser.shrinks _h; simp only [List.length_cons]; omega
  · have := Expr.parser.shrinks _h; simp only [List.length_cons] at this ⊢; omega
where
  /-- Goes on behind a statement, where a semicolon or the end must follow. -/
  next (ts : List Token) (b : Bindings) : Bindings × Except EvalError Unit :=
    match ts with
    | [] => (b, .ok ())
    | .semi :: rest => run rest b
    | _ :: _ => (b, .error .unexpectedToken)
  termination_by 2 * ts.length + 1
  decreasing_by simp only [List.length_cons]; omega

end Statements

/-- Runs a source of statements: the bindings afterwards, and the fault that ended it. -/
def execute (source : Text) (b : Bindings) : Bindings × Except EvalError Unit :=
  match Token.scan (decodeSpaces source) with
  | .error e => (b, .error e)
  | .ok ts => Statements.run ts b

end PadScript
