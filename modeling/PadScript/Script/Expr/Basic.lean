import PadScript.Script.Token

/-!
# Expressions and what they compute

`Expr.eval` computes the value of an expression under bindings. `and` and `or` give one of their
operands and leave the second alone when the first decides; every other operator computes both
operands, the left one first.
-/

namespace PadScript

/-- An expression. -/
inductive Expr where
  /-- A value written out. -/
  | literal (v : Value)
  /-- A bound name. -/
  | name (n : Text)
  /-- The negation of a truth value. -/
  | not (e : Expr)
  /-- A number with the other sign. -/
  | neg (e : Expr)
  /-- The left operand if it counts as false, else the right one. -/
  | and (l r : Expr)
  /-- The left operand if it counts as true, else the right one. -/
  | or (l r : Expr)
  /-- A comparison. -/
  | comparison (op : Comparison) (l r : Expr)
  /-- An operation on numbers. -/
  | arithmetic (op : Arithmetic) (l r : Expr)

/-- The order of two doubles; a double that is no number has none. -/
def compareFloat? (x y : Float) : Option Ordering :=
  if x < y then some .lt else if y < x then some .gt else if x == y then some .eq else none

namespace Value

/-- The value as a number, or the fault that it has none. -/
def toNumber (v : Value) : Except EvalError Float :=
  match v.number? with
  | some x => .ok x
  | none => .error .typeMismatch

/-- Texts are equal to equal texts and to nothing else; other values compare as numbers. -/
def agrees : Value → Value → Bool
  | .str s, .str t => s == t
  | .str _, _ => false
  | _, .str _ => false
  | v, w =>
    match v.number?, w.number? with
    | some x, some y => x == y
    | _, _ => false

/-- The order of two texts, or of two numbers. -/
def order (v w : Value) : Except EvalError Ordering :=
  match v, w with
  | .str s, .str t => .ok (compare s t)
  | v, w => do
    let x ← v.toNumber
    let y ← w.toNumber
    match compareFloat? x y with
    | some o => .ok o
    | none => .error .typeMismatch

/-- An operation on two numbers. -/
def calculate (op : Arithmetic) (v w : Value) : Except EvalError Value := do
  let x ← v.toNumber
  let y ← w.toNumber
  match op with
  | .add => return .number (x + y)
  | .sub => return .number (x - y)
  | .mul => return .number (x * y)
  | .div => if y == 0.0 then throw .divisionByZero else return .number (x / y)
  | .rem => if y == 0.0 then throw .divisionByZero else return .number (Number.remainder x y)

/-- An operation on two values: `add` joins two texts. -/
def arithmetic (op : Arithmetic) (v w : Value) : Except EvalError Value :=
  match op, v, w with
  | .add, .str s, .str t => .ok (.str (s ++ t))
  | op, v, w => calculate op v w

/-- A comparison of two values. -/
def comparison (op : Comparison) (v w : Value) : Except EvalError Value :=
  match op with
  | .eq => .ok (.bool (agrees v w))
  | .ne => .ok (.bool (!agrees v w))
  | .lt => (order v w).map fun o => .bool (o == .lt)
  | .gt => (order v w).map fun o => .bool (o == .gt)
  | .le => (order v w).map fun o => .bool (o != .gt)
  | .ge => (order v w).map fun o => .bool (o != .lt)

end Value

/-- The value of an expression. -/
def Expr.eval (b : Bindings) : Expr → Except EvalError Value
  | .literal v => .ok v
  | .name n =>
    match b[n]? with
    | some v => .ok v
    | none => .error .unbound
  | .not e => do
    let v ← e.eval b
    return .bool (!v.truth)
  | .neg e => do
    let x ← (← e.eval b).toNumber
    return .number (-x)
  | .and l r => do
    let v ← l.eval b
    if v.truth then r.eval b else return v
  | .or l r => do
    let v ← l.eval b
    if v.truth then return v else r.eval b
  | .comparison op l r => do
    let v ← l.eval b
    let w ← r.eval b
    Value.comparison op v w
  | .arithmetic op l r => do
    let v ← l.eval b
    let w ← r.eval b
    Value.arithmetic op v w

end PadScript
