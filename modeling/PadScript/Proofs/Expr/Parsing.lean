import PadScript.Proofs.Expr.Grammar

/-!
# The parser reads its grammar

Each way to put parsers together is matched with the shape of a rule: the parser that is put together
takes exactly what the rule derives, as much of it as there is. "As much as there is" means that the
tokens behind do not go on with an operator that would join more; how far a parser may go on is told
by the strength of the operators, from `or` to the products.

* `Grammar.Reads` : a parser takes what a language derives, no more and no less.
* `Grammar.levelsRead_withRoom` : **the levels of the parser read the symbols of the grammar**, with the
  bound on nesting.
* `Grammar.Derives.unique` : tokens have one tree at most.
* `Expr.ofTokens_eq_ok_iff` : **the accepted lists of tokens are the derived ones**, each with the
  tree of its derivation.
-/

namespace PadScript

namespace Grammar

open ExprParser

/-- How strongly a token joins the operands beside it. -/
def strength : Token → Nat
  | .op .or => 1
  | .op .and => 2
  | .op (.comparison _) => 3
  | .op (.arithmetic .add) | .op (.arithmetic .sub) => 4
  | .op (.arithmetic _) => 5
  | _ => 0

/-- The tokens do not begin with one that joins as strongly as `k`. -/
def Ends (k : Nat) (ts : List Token) : Prop := ∀ t us, ts = t :: us → strength t < k

theorem ends_nil {k : Nat} : Ends k [] := nofun

theorem ends_cons {k : Nat} {t : Token} {us : List Token} (h : strength t < k) :
    Ends k (t :: us) := by
  rintro t' us' ⟨⟩
  exact h

theorem Ends.mono {j k : Nat} {ts : List Token} (h : Ends j ts) (hjk : j ≤ k) : Ends k ts :=
  fun t us ht => Nat.lt_of_lt_of_le (h t us ht) hjk

/-- The tokens that join operands have the strength `k`. -/
def JoinsAt (join? : Token → Option (Expr → Expr → Expr)) (k : Nat) : Prop :=
  ∀ t, (join? t).isSome → strength t = k

theorem joinsAt_or : JoinsAt joinOr? 1 := by
  intro t ht
  unfold joinOr? at ht
  split at ht
  · rfl
  · cases ht

theorem joinsAt_and : JoinsAt joinAnd? 2 := by
  intro t ht
  unfold joinAnd? at ht
  split at ht
  · rfl
  · cases ht

theorem joinsAt_comparison : JoinsAt joinComparison? 3 := by
  intro t ht
  unfold joinComparison? at ht
  split at ht
  · rfl
  · cases ht

theorem joinsAt_sum : JoinsAt joinSum? 4 := by
  intro t ht
  unfold joinSum? at ht
  split at ht
  · rfl
  · rfl
  · cases ht

theorem joinsAt_product : JoinsAt joinProduct? 5 := by
  intro t ht
  unfold joinProduct? at ht
  split at ht
  · rfl
  · rfl
  · rfl
  · cases ht

section JoinsAt

variable {join? : Token → Option (Expr → Expr → Expr)} {k : Nat} {t : Token} {ts : List Token}

/-- An operand ends where a token joins it to the next one. -/
theorem JoinsAt.ends (h : JoinsAt join? k) {join : Expr → Expr → Expr}
    (ht : join? t = some join) : Ends (k + 1) (t :: ts) :=
  ends_cons (by have := h t (by simp [ht]); omega)

/-- A token that ends an expression joins nothing in it. -/
theorem JoinsAt.eq_none (h : JoinsAt join? k) (hends : Ends k (t :: ts)) : join? t = none := by
  cases ht : join? t with
  | none => rfl
  | some join =>
    have := h t (by simp [ht])
    have := hends t ts rfl
    omega

end JoinsAt

/-- The parser takes exactly what the language derives, up to tokens that join more weakly than
`k`. -/
structure Reads (p : ExprParser) (k : Nat) (L : List Token → Expr → Prop) : Prop where
  /-- What is taken is derived. -/
  sound : ∀ {ts e rest}, p.run ts = .ok (e, rest) → ∃ us, ts = us ++ rest ∧ L us e
  /-- What is derived is taken. -/
  complete : ∀ {us e rest}, L us e → Ends k rest → p.run (us ++ rest) = .ok (e, rest)

variable {p q : ExprParser} {k : Nat} {L M : List Token → Expr → Prop}
  {join? : Token → Option (Expr → Expr → Expr)}

theorem Reads.congr (h : Reads p k L) (hLM : ∀ ts e, M ts e ↔ L ts e) : Reads p k M where
  sound hrun := by
    obtain ⟨us, rfl, hus⟩ := h.sound hrun
    exact ⟨us, rfl, (hLM us _).2 hus⟩
  complete hus hrest := h.complete ((hLM _ _).1 hus) hrest

theorem reads_fail (reason : EvalError) (hL : ∀ ts e, ¬L ts e) : Reads (fail reason) k L where
  sound hrun := by simp [fail] at hrun
  complete hus := absurd hus (hL _ _)

/-! ### Operands that are joined -/

/-- What is taken on the right is joined to what stands on the left. -/
theorem sound_chainRest (hp : Reads p (k + 1) L) {vs ts rest : List Token} {left e : Expr}
    (hleft : Joined join? L vs left) (hrun : chainRest join? p left ts = .ok (e, rest)) :
    ∃ us, ts = us ++ rest ∧ Joined join? L (vs ++ us) e := by
  fun_induction chainRest join? p left ts generalizing vs with
  | case1 left =>
    cases hrun
    exact ⟨[], rfl, by simpa using hleft⟩
  | case2 left t ts hjoin =>
    cases hrun
    exact ⟨[], rfl, by simpa using hleft⟩
  | case3 left t ts join hjoin e hfail => simp at hrun
  | case4 left t ts join hjoin right rest' hright ih =>
    obtain ⟨us, rfl, hus⟩ := hp.sound hright
    obtain ⟨ws, rfl, hws⟩ := ih (.more hleft hjoin hus) hrun
    exact ⟨t :: us ++ ws, by simp, by simpa using hws⟩

theorem chainRest_of_ends (hjoin : JoinsAt join? k) {left : Expr}
    {rest : List Token} (hrest : Ends k rest) : chainRest join? p left rest = .ok (left, rest) := by
  cases rest with
  | nil => rw [chainRest]
  | cons t ts => rw [chainRest, hjoin.eq_none hrest]

/-- One more operand of a chain. -/
theorem chainRest_cons {t : Token} {ts rest : List Token} {left right : Expr}
    {join : Expr → Expr → Expr} (ht : join? t = some join) (hrun : p.run ts = .ok (right, rest)) :
    chainRest join? p left (t :: ts) = chainRest join? p (join left right) rest := by
  rw [chainRest]
  split
  next hnone => cases ht.symm.trans hnone
  next join' hjoin =>
    cases ht.symm.trans hjoin
    split
    next e hfail => cases hrun.symm.trans hfail
    next right' rest' hright =>
      cases hrun.symm.trans hright
      rfl

/-- The parser of a chain comes by every chain of operands that the tokens begin with. -/
theorem chain_run (hp : Reads p (k + 1) L) (hjoin : JoinsAt join? k)
    {us rest : List Token} {e : Expr} (hus : Joined join? L us e) (hrest : Ends (k + 1) rest) :
    (chain join? p).run (us ++ rest) = chainRest join? p e rest := by
  -- the chain grows on the right, where the parser goes on: what is behind it is left open
  induction hus generalizing rest with
  | single h => simp only [chain, hp.complete h hrest]
  | more _ ht hr ih =>
    rw [List.append_assoc, List.cons_append, ih (hjoin.ends ht),
      chainRest_cons ht (hp.complete hr hrest)]

theorem Reads.chain (hp : Reads p (k + 1) L) (hjoin : JoinsAt join? k) :
    Reads (chain join? p) k (Joined join? L) where
  sound {ts e rest} hrun := by
    simp only [ExprParser.chain] at hrun
    split at hrun
    · simp at hrun
    next left rest' hleft =>
      obtain ⟨us, rfl, hus⟩ := hp.sound hleft
      obtain ⟨vs, rfl, hvs⟩ := sound_chainRest hp (.single hus) hrun
      exact ⟨us ++ vs, by simp, hvs⟩
  complete hus hrest := by
    rw [chain_run hp hjoin hus (hrest.mono (Nat.le_succ k)), chainRest_of_ends hjoin hrest]

theorem Reads.pair (hp : Reads p (k + 1) L) (hjoin : JoinsAt join? k) :
    Reads (pair join? p) k (Paired join? L) where
  sound {ts e rest} hrun := by
    simp only [ExprParser.pair] at hrun
    split at hrun
    · simp at hrun
    next left hleft =>
      obtain ⟨us, rfl, hus⟩ := hp.sound hleft
      cases hrun
      exact ⟨us, rfl, .single hus⟩
    next left t rest' hleft =>
      obtain ⟨us, rfl, hus⟩ := hp.sound hleft
      split at hrun
      · cases hrun
        exact ⟨us, rfl, .single hus⟩
      next join ht =>
        split at hrun
        · simp at hrun
        next right rest'' hright =>
          obtain ⟨vs, rfl, hvs⟩ := hp.sound hright
          cases hrun
          exact ⟨us ++ t :: vs, by simp, .pair hus ht hvs⟩
  complete {us e rest} hus hrest := by
    cases hus with
    | single h =>
      cases rest with
      | nil => simp only [ExprParser.pair, hp.complete h ends_nil]
      | cons t ts =>
        simp only [ExprParser.pair, hp.complete h (hrest.mono (Nat.le_succ k)),
          hjoin.eq_none hrest]
    | pair hl ht hr =>
      have hright := hp.complete hr (hrest.mono (Nat.le_succ k))
      rw [List.append_assoc, List.cons_append]
      simp only [ExprParser.pair, hp.complete hl (hjoin.ends ht), ht, hright]

/-! ### Nested operands and atoms -/

theorem Reads.behind {o : Operator} {build : Expr → Expr} (hp : Reads p k L) (hq : Reads q k M)
    (hhead : ∀ {ts e}, M ts e → ∃ t us, ts = t :: us ∧ t ≠ .op o) :
    Reads (behind o build p q) k (Behind o build L M) where
  sound {ts e rest} hrun := by
    simp only [ExprParser.behind] at hrun
    split at hrun
    · obtain ⟨us, hts, hus⟩ := hq.sound hrun
      exact ⟨us, hts, .otherwise hus⟩
    next t ts =>
      split at hrun
      next ho =>
        obtain rfl : t = .op o := by
          cases t <;> simp_all [operator?]
        split at hrun
        · simp at hrun
        next e' rest' hnested =>
          obtain ⟨us, rfl, hus⟩ := hp.sound hnested
          cases hrun
          exact ⟨.op o :: us, rfl, .nested hus⟩
      · obtain ⟨us, hts, hus⟩ := hq.sound hrun
        exact ⟨us, hts, .otherwise hus⟩
  complete {us e rest} hus hrest := by
    cases hus with
    | nested h => simp [ExprParser.behind, operator?, hp.complete h hrest]
    | otherwise h =>
      obtain ⟨t, ts, rfl, ht⟩ := hhead h
      have ho : operator? t ≠ some o := by
        cases t <;> simp_all [operator?]
      have hq := hq.complete h hrest
      rw [List.cons_append] at hq ⊢
      simp only [ExprParser.behind, ho, if_false, hq]

theorem Reads.primary (hp : Reads p 1 L) : Reads (primary p) k (Atomic L) where
  sound {ts e rest} hrun := by
    simp only [ExprParser.primary] at hrun
    split at hrun
    · simp at hrun
    · cases hrun
      exact ⟨[_], rfl, .number _⟩
    · cases hrun
      exact ⟨[_], rfl, .str _⟩
    · cases hrun
      exact ⟨[_], rfl, .bool _⟩
    · cases hrun
      exact ⟨[_], rfl, .ident _⟩
    · split at hrun
      · simp at hrun
      · simp at hrun
      next e' rest' hnested =>
        obtain ⟨us, rfl, hus⟩ := hp.sound hnested
        cases hrun
        exact ⟨.lparen :: us ++ [.rparen], by simp, .parens hus⟩
      · simp at hrun
    · simp at hrun
  complete {us e rest} hus hrest := by
    cases hus with
    | number | str | bool | ident => rfl
    | @parens ts e h =>
      have hends : Ends 1 (.rparen :: rest) := ends_cons Nat.zero_lt_one
      have hnested := hp.complete h hends
      simp [ExprParser.primary, hnested]

/-! ### The levels of the parser -/

/-- The levels read what is derived with nestings less than `n` deep. No token is as strong as `6`, so
that a signed operand ends before any token. -/
structure LevelsRead (ls : Levels) (n : Nat) : Prop where
  signed : Reads ls.signed 6 (Below n .unary)
  negated : Reads ls.negated 3 (Below n .not)
  whole : Reads ls.whole 1 (Below n .expr)

theorem levelsRead_full : LevelsRead .full 0 where
  signed := reads_fail _ fun _ _ => not_below_zero
  negated := reads_fail _ fun _ _ => not_below_zero
  whole := reads_fail _ fun _ _ => not_below_zero

/-- One more nesting. -/
theorem LevelsRead.around {inner : Levels} {n : Nat} (h : LevelsRead inner n) :
    LevelsRead (.around inner) (n + 1) := by
  have hprimary : Reads (ExprParser.primary inner.whole) 6 (Below (n + 1) .primary) :=
    h.whole.primary.congr fun _ _ => below_primary_iff
  have hunary : Reads (Levels.around inner).signed 6 (Below (n + 1) .unary) := by
    refine (h.signed.behind hprimary fun hts => ?_).congr fun _ _ => below_unary_iff
    obtain ⟨m, -, hts⟩ := hts
    obtain ⟨t, us, rfl, ht⟩ := hts.exists_head
    exact ⟨t, us, rfl, ht _⟩
  have hproduct := (hunary.chain joinsAt_product).congr fun _ _ => below_product_iff
  have hsum := (hproduct.chain joinsAt_sum).congr fun _ _ => below_sum_iff
  have hcompare := (hsum.pair joinsAt_comparison).congr fun _ _ => below_compare_iff
  have hnot : Reads (Levels.around inner).negated 3 (Below (n + 1) .not) := by
    refine (h.negated.behind hcompare fun hts => ?_).congr fun _ _ => below_not_iff
    obtain ⟨m, -, hts⟩ := hts
    obtain ⟨t, us, rfl, ht⟩ := hts.exists_head
    refine ⟨t, us, rfl, fun hnot => ?_⟩
    cases ht .not hnot
  have hand := (hnot.chain joinsAt_and).congr fun _ _ => below_and_iff
  have hor := (hand.chain joinsAt_or).congr fun _ _ => below_or_iff
  exact ⟨hunary, hnot, hor.congr fun _ _ => below_expr_iff⟩

theorem levelsRead_withRoom : ∀ n, LevelsRead (.withRoom n) (n + 1)
  | 0 => levelsRead_full.around
  | n + 1 => (levelsRead_withRoom n).around

/-- A list of tokens has one tree at most, however deep it nests. -/
theorem Derives.unique {m n : Nat} {ts : List Token} {e f : Expr} (he : Derives .expr m ts e)
    (hf : Derives .expr n ts f) : e = f := by
  have hwhole := (levelsRead_withRoom (max m n)).whole
  have hrun := hwhole.complete ⟨m, by omega, he⟩ (ends_nil : Ends 1 [])
  have hrun' := hwhole.complete ⟨n, by omega, hf⟩ (ends_nil : Ends 1 [])
  cases hrun.symm.trans hrun'
  rfl

end Grammar

/-- The tokens are accepted just where the grammar derives them with at most 32 nestings, and then
with the tree of the derivation. -/
theorem Expr.ofTokens_eq_ok_iff (ts : List Token) (e : Expr) :
    Expr.ofTokens ts = .ok e ↔ ∃ n ≤ 32, Grammar.Derives .expr n ts e := by
  have hwhole : Grammar.Reads Expr.parser 1 (Grammar.Below 33 .expr) :=
    (Grammar.levelsRead_withRoom deepestNesting).whole
  constructor
  · intro h
    unfold Expr.ofTokens at h
    split at h
    · cases h
    next e' hrun =>
      cases h
      obtain ⟨us, rfl, n, hn, hus⟩ := hwhole.sound hrun
      exact ⟨n, by omega, by simpa using hus⟩
    · cases h
  · rintro ⟨n, hn, h⟩
    have hrun := hwhole.complete ⟨n, by omega, h⟩ (Grammar.ends_nil : Grammar.Ends 1 [])
    rw [List.append_nil] at hrun
    simp only [Expr.ofTokens, hrun]

end PadScript
