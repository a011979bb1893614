import PadScript.Script.Statement
import PadScript.Proofs.Expr.Parsing

/-!
# One statement after another

A run of statements reads one statement from the front of the tokens, carries it out, and goes on
behind it. This file says once what that comes to.

* `Statements.run_cons` : **what the run of a statement comes to.**
* `Expr.exists_of_parser` : the parser takes the tokens of an expression, which hold neither a
  semicolon nor the sign of an assignment.
* `Statements.run_induction` : a run is followed from one semicolon to the next.
-/

namespace PadScript

/-! ### What an expression takes -/

/-- An expression is spelled without semicolons and without the sign of an assignment. -/
theorem Grammar.Derives.not_mem {s : Grammar.Symbol} {n : Nat} {ts : List Token} {e : Expr}
    (h : Grammar.Derives s n ts e) : .semi ∉ ts ∧ .assign ∉ ts := by
  induction h with
  | expr _ ih | or _ ih | and _ ih | not _ ih | compare _ ih | sum _ ih | product _ ih
  | unary _ ih => exact ih
  | orMore _ _ ihl ihr | andMore _ _ ihl ihr | comparePair _ _ _ ihl ihr | sumMore _ _ _ ihl ihr
  | productMore _ _ _ ihl ihr => simp [ihl, ihr]
  | notNested _ ih | unaryNested _ ih | parens _ ih => simp [ih]
  | number | str | bool | ident => simp

/-- What the parser takes is an expression, with nestings less than 33 deep. -/
theorem Expr.exists_of_parser {ts rest : List Token} {e : Expr}
    (h : Expr.parser.run ts = .ok (e, rest)) :
    ∃ us, ts = us ++ rest ∧ Grammar.Below (deepestNesting + 1) .expr us e :=
  (Grammar.levelsRead_withRoom deepestNesting).whole.sound h

/-- A list of tokens that is accepted is one that the parser takes whole. -/
theorem Expr.parser_of_ofTokens {ts : List Token} {e : Expr} (h : Expr.ofTokens ts = .ok e) :
    Expr.parser.run ts = .ok (e, []) := by
  unfold Expr.ofTokens at h
  split at h
  next => cases h
  next e' hrun =>
    cases h
    exact hrun
  next => cases h

namespace Statements

/-! ### The parts of a statement -/

/-- The name that a statement binds, if it binds one. -/
def target? : List Token → Option Text
  | .ident name :: .assign :: _ => some name
  | _ => none

/-- The tokens of the expression of a statement, and all behind it. -/
def body : List Token → List Token
  | .ident _ :: .assign :: rest => rest
  | ts => ts

/-- Binds a value to a name, if there is one. -/
def store (target? : Option Text) (v : Value) (b : Bindings) : Bindings :=
  match target? with
  | some name => b.insert name v
  | none => b

theorem body_suffix (ts : List Token) : body ts <:+ ts := by
  unfold body
  split
  next name rest => exact ⟨[.ident name, .assign], rfl⟩
  next => exact List.suffix_rfl

theorem body_of_target {ts : List Token} {name : Text} (h : target? ts = some name) :
    ts = .ident name :: .assign :: body ts := by
  unfold target? at h
  split at h
  next name' rest =>
    obtain rfl := Option.some.inj h
    rfl
  next => cases h

/-- **What the run of a statement comes to.** -/
theorem run_cons {t : Token} {ts : List Token} (ht : t ≠ .semi) (b : Bindings) :
    run (t :: ts) b =
      match Expr.parser.run (body (t :: ts)) with
      | .error fault => (b, .error fault)
      | .ok (e, rest) =>
        match e.eval b with
        | .error fault => (b, .error fault)
        | .ok v => run.next rest (store (target? (t :: ts)) v b) := by
  rw [run.eq_def]
  split
  next h => cases h
  next h => exact absurd (List.cons.inj h).1 ht
  next name rest h =>
    rw [h]
    simp only [body, target?, store]
    cases Expr.parser.run rest <;> rfl
  next u rest _ hassign h =>
    obtain ⟨rfl, rfl⟩ := List.cons.inj h
    have hbody : body (t :: ts) = t :: ts := by
      unfold body
      split
      next name rest h => exact absurd h (by simpa using hassign name rest)
      next => rfl
    have htarget : target? (t :: ts) = none := by
      unfold target?
      split
      next name rest h => exact absurd h (by simpa using hassign name rest)
      next => rfl
    rw [hbody, htarget]
    cases Expr.parser.run (t :: ts) <;> rfl

theorem run_nil (b : Bindings) : run [] b = (b, .ok ()) := by rw [run]

theorem run_semi (rest : List Token) (b : Bindings) : run (.semi :: rest) b = run rest b := by
  rw [run]

/-- Behind a statement there is the end, or a semicolon and the rest of the run, or a fault. -/
theorem next_cases (rest : List Token) :
    (∃ us, us <:+ rest ∧ ∀ b, run.next rest b = run us b) ∨
      ∀ b, run.next rest b = (b, .error .unexpectedToken) := by
  simp only [run.next.eq_def]
  split
  next => exact .inl ⟨[], List.suffix_rfl, fun b => (run_nil b).symm⟩
  next us => exact .inl ⟨us, List.suffix_cons _ _, fun _ => rfl⟩
  next => exact .inr fun _ => rfl

/-- A statement takes its first token at least. -/
theorem rest_suffix {t : Token} {ts rest : List Token} {e : Expr}
    (h : Expr.parser.run (body (t :: ts)) = .ok (e, rest)) : rest <:+ ts := by
  obtain ⟨us, hus, -⟩ := Expr.exists_of_parser h
  have hshorter := Expr.parser.shrinks h
  have hsuffix : rest <:+ t :: ts := List.IsSuffix.trans ⟨us, hus.symm⟩ (body_suffix _)
  rcases List.suffix_cons_iff.1 hsuffix with rfl | hsuffix
  · have hle := (body_suffix (t :: ts)).length_le
    omega
  · exact hsuffix

/-- **A run is followed from statement to statement.** -/
theorem run_induction {motive : List Token → Prop} (nil : motive [])
    (semi : ∀ ts, motive ts → motive (.semi :: ts))
    (statement : ∀ t ts, t ≠ .semi → (∀ us, us <:+ ts → motive us) → motive (t :: ts))
    (ts : List Token) : motive ts := by
  induction hn : ts.length using Nat.strongRecOn generalizing ts with
  | ind n ih =>
    subst hn
    cases ts with
    | nil => exact nil
    | cons t ts =>
      have hshorter : ∀ us, us <:+ ts → motive us := fun us hus =>
        ih us.length (Nat.lt_succ_of_le hus.length_le) us rfl
      cases t with
      | semi => exact semi ts (hshorter ts List.suffix_rfl)
      | number | str | bool | ident | op | assign | lparen | rparen =>
        exact statement _ ts (by simp) hshorter

end Statements

end PadScript
