import PadScript.Script.Expr.Parser

/-!
# Expressions in front of a semicolon

A semicolon is no part of an expression, and the parser looks only one token ahead. So what it takes
from a list of tokens stays the same if a semicolon and more tokens come behind, and where it stops
at a fault it stops at the same place. The fault has another name only where the tokens end: an
expression that breaks off ends at the semicolon.

* `ExprParser.StopsAtSemi` : a parser reads no further than a semicolon.
* `Expr.stopsAtSemi_parser` : **the parser of expressions does.**
-/

namespace PadScript

/-- The fault, if there is a semicolon where the tokens end. -/
def EvalError.atSemi : EvalError → EvalError
  | .unexpectedEnd => .unexpectedToken
  | fault => fault

namespace ExprParser

/-- What is taken, with a semicolon and more tokens behind. -/
def extend (more : List Token) :
    Except EvalError (Expr × List Token) → Except EvalError (Expr × List Token)
  | .error fault => .error fault.atSemi
  | .ok (e, rest) => .ok (e, rest ++ .semi :: more)

/-- The parser reads no further than a semicolon. -/
def StopsAtSemi (p : ExprParser) : Prop :=
  ∀ ts more, p.run (ts ++ .semi :: more) = extend more (p.run ts)

variable {p q : ExprParser} {join? : Token → Option (Expr → Expr → Expr)}

theorem stopsAtSemi_fail {reason : EvalError} (h : reason.atSemi = reason) :
    StopsAtSemi (fail reason) := by
  intro ts more
  simp only [fail, extend, h]

theorem StopsAtSemi.chainRest (hp : StopsAtSemi p) (hsemi : join? .semi = none) (left : Expr)
    (ts more : List Token) :
    chainRest join? p left (ts ++ .semi :: more) = extend more (chainRest join? p left ts) := by
  fun_induction ExprParser.chainRest join? p left ts with
  | case1 left => simp only [List.nil_append, ExprParser.chainRest, hsemi, extend]
  | case2 left t ts hjoin =>
    rw [List.cons_append, ExprParser.chainRest]
    simp only [hjoin, extend, List.cons_append]
  | case3 left t ts join hjoin fault hrun =>
    rw [List.cons_append, ExprParser.chainRest]
    simp only [hjoin]
    split
    next fault' hrun' =>
      rw [hp, hrun] at hrun'
      cases hrun'
      rfl
    next right rest hrun' =>
      rw [hp, hrun] at hrun'
      cases hrun'
  | case4 left t ts join hjoin right rest hrun ih =>
    rw [List.cons_append, ExprParser.chainRest]
    simp only [hjoin]
    split
    next fault hrun' =>
      rw [hp, hrun] at hrun'
      cases hrun'
    next right' rest' hrun' =>
      rw [hp, hrun] at hrun'
      cases hrun'
      exact ih

theorem StopsAtSemi.chain (hp : StopsAtSemi p) (hsemi : join? .semi = none) :
    StopsAtSemi (chain join? p) := by
  intro ts more
  simp only [ExprParser.chain, hp ts more]
  cases p.run ts with
  | error fault => rfl
  | ok taken => exact hp.chainRest hsemi taken.1 taken.2 more

theorem StopsAtSemi.pair (hp : StopsAtSemi p) (hsemi : join? .semi = none) :
    StopsAtSemi (pair join? p) := by
  intro ts more
  simp only [ExprParser.pair, hp ts more]
  cases p.run ts with
  | error fault => rfl
  | ok taken =>
    obtain ⟨left, rest⟩ := taken
    cases rest with
    | nil => simp only [extend, List.nil_append, hsemi]
    | cons t rest =>
      simp only [extend, List.cons_append]
      cases join? t with
      | none => rfl
      | some join =>
        simp only [hp rest more]
        cases p.run rest <;> rfl

theorem StopsAtSemi.behind {o : Operator} {build : Expr → Expr} (hp : StopsAtSemi p)
    (hq : StopsAtSemi q) : StopsAtSemi (behind o build p q) := by
  intro ts more
  cases ts with
  | nil =>
    have hnone : operator? .semi ≠ some o := by simp [operator?]
    simp only [ExprParser.behind, List.nil_append, if_neg hnone]
    exact hq [] more
  | cons t ts =>
    simp only [ExprParser.behind, List.cons_append]
    split
    · rw [hp ts more]
      cases p.run ts <;> rfl
    · exact hq (t :: ts) more

theorem StopsAtSemi.primary (hp : StopsAtSemi p) : StopsAtSemi (primary p) := by
  intro ts more
  cases ts with
  | nil => rfl
  | cons t ts =>
    cases t with
    | number | str | bool | ident | op | assign | rparen | semi => rfl
    | lparen =>
      simp only [ExprParser.primary, List.cons_append, hp ts more]
      cases p.run ts with
      | error fault => rfl
      | ok taken =>
        obtain ⟨e, rest⟩ := taken
        cases rest with
        | nil => rfl
        | cons t rest => cases t <;> rfl

end ExprParser

namespace Levels

open ExprParser

/-- The levels read no further than a semicolon. -/
structure StopAtSemi (ls : Levels) : Prop where
  signed : StopsAtSemi ls.signed
  negated : StopsAtSemi ls.negated
  whole : StopsAtSemi ls.whole

theorem stopAtSemi_full : StopAtSemi full where
  signed := stopsAtSemi_fail rfl
  negated := stopsAtSemi_fail rfl
  whole := stopsAtSemi_fail rfl

theorem StopAtSemi.around {inner : Levels} (h : StopAtSemi inner) : StopAtSemi (around inner) := by
  have hsigned : StopsAtSemi (Levels.around inner).signed := h.signed.behind h.whole.primary
  have hproduct : StopsAtSemi (chain joinProduct? (Levels.around inner).signed) := hsigned.chain rfl
  have hsum := hproduct.chain (show joinSum? .semi = none from rfl)
  have hcompare := hsum.pair (show joinComparison? .semi = none from rfl)
  have hnegated : StopsAtSemi (Levels.around inner).negated := h.negated.behind hcompare
  exact ⟨hsigned, hnegated, (hnegated.chain rfl).chain rfl⟩

theorem stopAtSemi_withRoom : ∀ n, StopAtSemi (withRoom n)
  | 0 => stopAtSemi_full.around
  | n + 1 => (stopAtSemi_withRoom n).around

end Levels

/-- **The parser of expressions reads no further than a semicolon.** -/
theorem Expr.stopsAtSemi_parser : ExprParser.StopsAtSemi Expr.parser :=
  (Levels.stopAtSemi_withRoom deepestNesting).whole

end PadScript
