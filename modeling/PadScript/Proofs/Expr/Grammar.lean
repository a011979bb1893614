import PadScript.Script.Expr.Parser

/-!
# The grammar of expressions

The tokens of an expression are derived by

```text
expr    := or
or      := and ('or' and)*
and     := not ('and' not)*
not     := 'not' not | compare
compare := sum (('==' | '!=' | '<' | '>' | '<=' | '>=') sum)?
sum     := product (('+' | '-') product)*
product := unary (('*' | '/' | '%') unary)*
unary   := '-' unary | primary
primary := NUMBER | STRING | BOOL | IDENT | '(' expr ')'
```

`Grammar.Derives s n ts e` says that the symbol `s` derives the tokens `ts`, that the tree of the
derivation is `e`, and that `not`, the sign and parentheses stand at most `n` deep inside each other
in it, with `n` the exact depth. A repetition adds its operands one by one on the right, and the
tree grows to the left with it.

* `Grammar.Below` : what a symbol derives with a bound on the depth.
* `Grammar.below_or_iff` and its siblings : **each symbol by the symbols of its rule**, where
  `Joined`, `Paired`, `Behind` and `Atomic` are the four shapes of a rule.
* `Grammar.Derives.exists_head` : every expression has a first token, and it is an operator only
  where the symbol leads to a negation or a sign.
-/

namespace PadScript

namespace Grammar

open ExprParser

/-- The symbols of the grammar. -/
inductive Symbol where
  | expr | or | and | not | compare | sum | product | unary | primary

/-- The derivations of a symbol, with the depth to which they nest and their trees. -/
inductive Derives : Symbol → Nat → List Token → Expr → Prop
  | expr {n ts e} (h : Derives .or n ts e) : Derives .expr n ts e
  | or {n ts e} (h : Derives .and n ts e) : Derives .or n ts e
  | orMore {m n ts us l r} (hl : Derives .or m ts l) (hr : Derives .and n us r) :
      Derives .or (max m n) (ts ++ .op .or :: us) (.or l r)
  | and {n ts e} (h : Derives .not n ts e) : Derives .and n ts e
  | andMore {m n ts us l r} (hl : Derives .and m ts l) (hr : Derives .not n us r) :
      Derives .and (max m n) (ts ++ .op .and :: us) (.and l r)
  | not {n ts e} (h : Derives .compare n ts e) : Derives .not n ts e
  | notNested {n ts e} (h : Derives .not n ts e) :
      Derives .not (n + 1) (.op .not :: ts) (.not e)
  | compare {n ts e} (h : Derives .sum n ts e) : Derives .compare n ts e
  | comparePair {m n ts us l r} (c : Comparison) (hl : Derives .sum m ts l)
      (hr : Derives .sum n us r) :
      Derives .compare (max m n) (ts ++ .op (.comparison c) :: us) (.comparison c l r)
  | sum {n ts e} (h : Derives .product n ts e) : Derives .sum n ts e
  | sumMore {m n ts us l r a} (ha : a = .add ∨ a = .sub) (hl : Derives .sum m ts l)
      (hr : Derives .product n us r) :
      Derives .sum (max m n) (ts ++ .op (.arithmetic a) :: us) (.arithmetic a l r)
  | product {n ts e} (h : Derives .unary n ts e) : Derives .product n ts e
  | productMore {m n ts us l r a} (ha : a = .mul ∨ a = .div ∨ a = .rem)
      (hl : Derives .product m ts l) (hr : Derives .unary n us r) :
      Derives .product (max m n) (ts ++ .op (.arithmetic a) :: us) (.arithmetic a l r)
  | unary {n ts e} (h : Derives .primary n ts e) : Derives .unary n ts e
  | unaryNested {n ts e} (h : Derives .unary n ts e) :
      Derives .unary (n + 1) (.op (.arithmetic .sub) :: ts) (.neg e)
  | number (x : Float) : Derives .primary 0 [.number x] (.literal (.number x))
  | str (t : Text) : Derives .primary 0 [.str t] (.literal (.str t))
  | bool (b : Bool) : Derives .primary 0 [.bool b] (.literal (.bool b))
  | ident (name : Text) : Derives .primary 0 [.ident name] (.name name)
  | parens {n ts e} (h : Derives .expr n ts e) :
      Derives .primary (n + 1) (.lparen :: ts ++ [.rparen]) e

/-- The operators that an expression of the symbol can begin with. -/
def Symbol.Opens : Symbol → Operator → Prop
  | .expr, o | .or, o | .and, o | .not, o => o = .not ∨ o = .arithmetic .sub
  | .compare, o | .sum, o | .product, o | .unary, o => o = .arithmetic .sub
  | .primary, _ => False

theorem Derives.exists_head {s : Symbol} {n : Nat} {ts : List Token} {e : Expr}
    (h : Derives s n ts e) : ∃ t us, ts = t :: us ∧ ∀ o, t = .op o → s.Opens o := by
  induction h with
  | expr _ ih | or _ ih | and _ ih | compare _ ih | sum _ ih | product _ ih => exact ih
  | orMore _ _ ih _ | andMore _ _ ih _ | comparePair _ _ _ ih _ | sumMore _ _ _ ih _
  | productMore _ _ _ ih _ =>
    obtain ⟨t, us, rfl, ht⟩ := ih
    exact ⟨t, _, rfl, ht⟩
  | not _ ih =>
    obtain ⟨t, us, rfl, ht⟩ := ih
    exact ⟨t, us, rfl, fun o ho => .inr (ht o ho)⟩
  | unary _ ih =>
    obtain ⟨t, us, rfl, ht⟩ := ih
    exact ⟨t, us, rfl, fun o ho => absurd (ht o ho) id⟩
  | notNested => exact ⟨_, _, rfl, by rintro o ⟨⟩; exact .inl rfl⟩
  | unaryNested => exact ⟨_, _, rfl, by rintro o ⟨⟩; rfl⟩
  | number | str | bool | ident => exact ⟨_, _, rfl, by rintro o ⟨⟩⟩
  | parens => exact ⟨.lparen, _, rfl, by rintro o ⟨⟩⟩

/-! ### The shapes of a rule -/

/-- Operands joined from the left. -/
inductive Joined (join? : Token → Option (Expr → Expr → Expr))
    (operand : List Token → Expr → Prop) : List Token → Expr → Prop
  | single {ts e} (h : operand ts e) : Joined join? operand ts e
  | more {ts t us l r join} (hl : Joined join? operand ts l) (ht : join? t = some join)
      (hr : operand us r) : Joined join? operand (ts ++ t :: us) (join l r)

/-- One operand, or two that are joined. -/
inductive Paired (join? : Token → Option (Expr → Expr → Expr))
    (operand : List Token → Expr → Prop) : List Token → Expr → Prop
  | single {ts e} (h : operand ts e) : Paired join? operand ts e
  | pair {ts t us l r join} (hl : operand ts l) (ht : join? t = some join) (hr : operand us r) :
      Paired join? operand (ts ++ t :: us) (join l r)

/-- A nested operand behind an operator, or something else. -/
inductive Behind (o : Operator) (build : Expr → Expr)
    (nested otherwise : List Token → Expr → Prop) : List Token → Expr → Prop
  | nested {ts e} (h : nested ts e) : Behind o build nested otherwise (.op o :: ts) (build e)
  | otherwise {ts e} (h : otherwise ts e) : Behind o build nested otherwise ts e

/-- A value, a name, or what is nested between parentheses. -/
inductive Atomic (nested : List Token → Expr → Prop) : List Token → Expr → Prop
  | number (x : Float) : Atomic nested [.number x] (.literal (.number x))
  | str (t : Text) : Atomic nested [.str t] (.literal (.str t))
  | bool (b : Bool) : Atomic nested [.bool b] (.literal (.bool b))
  | ident (name : Text) : Atomic nested [.ident name] (.name name)
  | parens {ts e} (h : nested ts e) : Atomic nested (.lparen :: ts ++ [.rparen]) e

/-! ### Each symbol by the symbols of its rule -/

/-- What a symbol derives with nestings less than `k` deep. -/
def Below (k : Nat) (s : Symbol) (ts : List Token) (e : Expr) : Prop :=
  ∃ n < k, Derives s n ts e

variable {k : Nat} {ts : List Token} {e : Expr}

theorem not_below_zero {s : Symbol} : ¬Below 0 s ts e := by
  rintro ⟨n, hn, -⟩
  exact Nat.not_lt_zero n hn

theorem below_expr_iff : Below k .expr ts e ↔ Below k .or ts e := by
  constructor
  · rintro ⟨n, hn, h⟩
    cases h with
    | expr h => exact ⟨n, hn, h⟩
  · rintro ⟨n, hn, h⟩
    exact ⟨n, hn, .expr h⟩

/-- A rule that joins operands from the left, from its two halves. -/
theorem below_iff_joined {s t : Symbol} {join? : Token → Option (Expr → Expr → Expr)}
    (cut : ∀ {n ts e}, Derives s n ts e → n < k → Joined join? (Below k t) ts e)
    (single : ∀ {n ts e}, Derives t n ts e → Derives s n ts e)
    (more : ∀ {m n ts x us l r join}, Derives s m ts l → join? x = some join →
      Derives t n us r → Derives s (max m n) (ts ++ x :: us) (join l r)) :
    Below k s ts e ↔ Joined join? (Below k t) ts e := by
  constructor
  · rintro ⟨n, hn, h⟩
    exact cut h hn
  · intro h
    induction h with
    | single h =>
      obtain ⟨n, hn, h⟩ := h
      exact ⟨n, hn, single h⟩
    | more _ hx hr ih =>
      obtain ⟨m, hm, hl⟩ := ih
      obtain ⟨n, hn, hr⟩ := hr
      exact ⟨max m n, by omega, more hl hx hr⟩

/-- A rule with an operator in front of a nested operand, from its two halves. -/
theorem below_iff_behind {s t : Symbol} {o : Operator} {build : Expr → Expr}
    (cut : ∀ {n ts e}, Derives s n ts e → n < k + 1 →
      Behind o build (Below k s) (Below (k + 1) t) ts e)
    (nested : ∀ {n ts e}, Derives s n ts e → Derives s (n + 1) (.op o :: ts) (build e))
    (otherwise : ∀ {n ts e}, Derives t n ts e → Derives s n ts e) :
    Below (k + 1) s ts e ↔ Behind o build (Below k s) (Below (k + 1) t) ts e := by
  constructor
  · rintro ⟨n, hn, h⟩
    exact cut h hn
  · intro h
    cases h with
    | nested h =>
      obtain ⟨n, hn, h⟩ := h
      exact ⟨n + 1, by omega, nested h⟩
    | otherwise h =>
      obtain ⟨n, hn, h⟩ := h
      exact ⟨n, hn, otherwise h⟩

theorem Derives.joined_or : ∀ {n ts e}, Derives .or n ts e → n < k →
    Joined joinOr? (Below k .and) ts e
  | _, _, _, .or h, hn => .single ⟨_, hn, h⟩
  | _, _, _, .orMore hl hr, hn => .more (hl.joined_or (by omega)) rfl ⟨_, by omega, hr⟩

theorem Derives.joined_and : ∀ {n ts e}, Derives .and n ts e → n < k →
    Joined joinAnd? (Below k .not) ts e
  | _, _, _, .and h, hn => .single ⟨_, hn, h⟩
  | _, _, _, .andMore hl hr, hn => .more (hl.joined_and (by omega)) rfl ⟨_, by omega, hr⟩

theorem Derives.joined_sum : ∀ {n ts e}, Derives .sum n ts e → n < k →
    Joined joinSum? (Below k .product) ts e
  | _, _, _, .sum h, hn => .single ⟨_, hn, h⟩
  | _, _, _, .sumMore ha hl hr, hn =>
    .more (hl.joined_sum (by omega)) (by rcases ha with rfl | rfl <;> rfl) ⟨_, by omega, hr⟩

theorem Derives.joined_product : ∀ {n ts e}, Derives .product n ts e → n < k →
    Joined joinProduct? (Below k .unary) ts e
  | _, _, _, .product h, hn => .single ⟨_, hn, h⟩
  | _, _, _, .productMore ha hl hr, hn =>
    .more (hl.joined_product (by omega)) (by rcases ha with rfl | rfl | rfl <;> rfl)
      ⟨_, by omega, hr⟩

theorem below_or_iff : Below k .or ts e ↔ Joined joinOr? (Below k .and) ts e := by
  refine below_iff_joined Derives.joined_or .or fun hl hx hr => ?_
  unfold joinOr? at hx
  split at hx <;> cases hx
  exact .orMore hl hr

theorem below_and_iff : Below k .and ts e ↔ Joined joinAnd? (Below k .not) ts e := by
  refine below_iff_joined Derives.joined_and .and fun hl hx hr => ?_
  unfold joinAnd? at hx
  split at hx <;> cases hx
  exact .andMore hl hr

theorem below_sum_iff : Below k .sum ts e ↔ Joined joinSum? (Below k .product) ts e := by
  refine below_iff_joined Derives.joined_sum .sum fun hl hx hr => ?_
  unfold joinSum? at hx
  split at hx <;> cases hx <;> exact .sumMore (by simp) hl hr

theorem below_product_iff :
    Below k .product ts e ↔ Joined joinProduct? (Below k .unary) ts e := by
  refine below_iff_joined Derives.joined_product .product fun hl hx hr => ?_
  unfold joinProduct? at hx
  split at hx <;> cases hx <;> exact .productMore (by simp) hl hr

theorem below_compare_iff :
    Below k .compare ts e ↔ Paired joinComparison? (Below k .sum) ts e := by
  constructor
  · rintro ⟨n, hn, h⟩
    cases h with
    | compare h => exact .single ⟨n, hn, h⟩
    | comparePair c hl hr => exact .pair ⟨_, by omega, hl⟩ rfl ⟨_, by omega, hr⟩
  · intro h
    cases h with
    | single h =>
      obtain ⟨n, hn, h⟩ := h
      exact ⟨n, hn, .compare h⟩
    | pair hl hx hr =>
      obtain ⟨m, hm, hl⟩ := hl
      obtain ⟨n, hn, hr⟩ := hr
      unfold joinComparison? at hx
      split at hx <;> cases hx
      exact ⟨max m n, by omega, .comparePair _ hl hr⟩

theorem below_not_iff :
    Below (k + 1) .not ts e ↔ Behind .not .not (Below k .not) (Below (k + 1) .compare) ts e := by
  refine below_iff_behind (fun h hn => ?_) .notNested .not
  cases h with
  | not h => exact .otherwise ⟨_, hn, h⟩
  | notNested h => exact .nested ⟨_, by omega, h⟩

theorem below_unary_iff :
    Below (k + 1) .unary ts e ↔
      Behind (.arithmetic .sub) .neg (Below k .unary) (Below (k + 1) .primary) ts e := by
  refine below_iff_behind (fun h hn => ?_) .unaryNested .unary
  cases h with
  | unary h => exact .otherwise ⟨_, hn, h⟩
  | unaryNested h => exact .nested ⟨_, by omega, h⟩

theorem below_primary_iff : Below (k + 1) .primary ts e ↔ Atomic (Below k .expr) ts e := by
  constructor
  · rintro ⟨n, hn, h⟩
    cases h with
    | number x => exact .number x
    | str t => exact .str t
    | bool b => exact .bool b
    | ident name => exact .ident name
    | parens h => exact .parens ⟨_, by omega, h⟩
  · intro h
    cases h with
    | number x => exact ⟨0, by omega, .number x⟩
    | str t => exact ⟨0, by omega, .str t⟩
    | bool b => exact ⟨0, by omega, .bool b⟩
    | ident name => exact ⟨0, by omega, .ident name⟩
    | parens h =>
      obtain ⟨n, hn, h⟩ := h
      exact ⟨n + 1, by omega, .parens h⟩

end Grammar

end PadScript
