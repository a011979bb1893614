import PadScript.Proofs.Statement.Basic

/-!
# What statements see and touch

Expressions and statements reach the bindings only by the names that are written in them: there is
no way to read, change or remove a binding whose name does not stand in the source. That is so for
every source, also for one that breaks off at a fault.

* `Expr.eval_congr` : the value of an expression depends on its names only.
* `Statements.agree_run` : two runs on bindings that agree on the names of the tokens keep in step.
* `Statements.run_keeps` : what every assignment that is written out keeps, a run keeps.
* `Statements.execute_in_scope` : **a source sees and touches only what it names.**
-/

namespace PadScript

/-- The names in an expression. -/
def Expr.names : Expr → List Text
  | .literal _ => []
  | .name n => [n]
  | .not e => e.names
  | .neg e => e.names
  | .and l r => l.names ++ r.names
  | .or l r => l.names ++ r.names
  | .comparison _ l r => l.names ++ r.names
  | .arithmetic _ l r => l.names ++ r.names

/-- The names of an expression stand among its tokens. -/
theorem Grammar.Derives.ident_mem {s : Grammar.Symbol} {n : Nat} {ts : List Token} {e : Expr}
    (h : Grammar.Derives s n ts e) : ∀ name ∈ e.names, .ident name ∈ ts := by
  induction h with
  | expr _ ih | or _ ih | and _ ih | not _ ih | compare _ ih | sum _ ih | product _ ih
  | unary _ ih => exact ih
  | orMore _ _ ihl ihr | andMore _ _ ihl ihr | comparePair _ _ _ ihl ihr | sumMore _ _ _ ihl ihr
  | productMore _ _ _ ihl ihr =>
    intro name hname
    rcases List.mem_append.1 hname with hl | hr
    · exact List.mem_append_left _ (ihl name hl)
    · exact List.mem_append_right _ (List.mem_cons_of_mem _ (ihr name hr))
  | notNested _ ih | unaryNested _ ih =>
    intro name hname
    exact List.mem_cons_of_mem _ (ih name hname)
  | number | str | bool => simp [Expr.names]
  | ident => simp [Expr.names]
  | parens _ ih =>
    intro name hname
    exact List.mem_append_left _ (List.mem_cons_of_mem _ (ih name hname))

/-- The name that a token is. -/
def Token.ident? : Token → Option Text
  | .ident name => some name
  | _ => none

/-- Two bindings agree on names. -/
def Bindings.Agree (shared : Text → Prop) (b b' : Bindings) : Prop :=
  ∀ name, shared name → b[name]? = b'[name]?

section Eval

variable {shared : Text → Prop} {b b' : Bindings}

/-- **The value of an expression depends on its names only.** An operand that is left out is left
out on both sides, because the other one has the same value. -/
theorem Expr.eval_congr (e : Expr) (h : ∀ name ∈ e.names, b[name]? = b'[name]?) :
    e.eval b = e.eval b' := by
  induction e with
  | literal v => rfl
  | name n => simp only [eval, h n (by simp [names])]
  | not e ih | neg e ih => simp only [eval, ih h]
  | and l r ihl ihr | or l r ihl ihr | comparison op l r ihl ihr | arithmetic op l r ihl ihr =>
    have hl := ihl fun name hname => h name (List.mem_append_left _ hname)
    have hr := ihr fun name hname => h name (List.mem_append_right _ hname)
    simp only [eval, hl, hr]

/-- The same value bound to the same name. -/
theorem Bindings.Agree.insert (h : Bindings.Agree shared b b') (name : Text) (v : Value) :
    Bindings.Agree shared (b.insert name v) (b'.insert name v) := by
  intro other hother
  simp only [Std.TreeMap.getElem?_insert, h other hother]

end Eval

namespace Statements

variable {shared : Text → Prop} {b b' : Bindings}

theorem Agree.store (h : Bindings.Agree shared b b') (target? : Option Text) (v : Value) :
    Bindings.Agree shared (store target? v b) (store target? v b') := by
  cases target? with
  | none => exact h
  | some name => exact h.insert name v

/-- **Two runs keep in step** if the bindings agree on the names of the tokens. -/
theorem agree_run (ts : List Token) (hshared : ∀ name, .ident name ∈ ts → shared name)
    (h : Bindings.Agree shared b b') :
    (run ts b).2 = (run ts b').2 ∧ Bindings.Agree shared (run ts b).1 (run ts b').1 := by
  induction ts using run_induction generalizing b b' with
  | nil => simpa [run_nil] using h
  | semi ts ih =>
    simp only [run_semi]
    exact ih (fun name hname => hshared name (List.mem_cons_of_mem _ hname)) h
  | statement t ts ht ih =>
    rw [run_cons ht, run_cons ht]
    cases hrun : Expr.parser.run (body (t :: ts)) with
    | error fault => exact ⟨rfl, h⟩
    | ok taken =>
      obtain ⟨e, rest⟩ := taken
      obtain ⟨us, hus, n, -, hderives⟩ := Expr.exists_of_parser hrun
      have hnames : ∀ name ∈ e.names, b[name]? = b'[name]? := by
        intro name hname
        have hmem : .ident name ∈ body (t :: ts) := by
          rw [hus]
          exact List.mem_append_left _ (hderives.ident_mem name hname)
        exact h name (hshared name ((body_suffix _).subset hmem))
      simp only [e.eval_congr hnames]
      cases e.eval b' with
      | error fault => exact ⟨rfl, h⟩
      | ok v =>
        have hstored := Agree.store h (target? (t :: ts)) v
        have hrest := rest_suffix hrun
        rcases next_cases rest with ⟨us, hus, hnext⟩ | hnext
        · have hsuffix := hus.trans hrest
          simp only [hnext]
          exact ih us hsuffix
            (fun name hname => hshared name (List.mem_cons_of_mem _ (hsuffix.subset hname))) hstored
        · simpa only [hnext, true_and] using hstored

/-- The name stands before the sign of an assignment. -/
def IsAssigned (ts : List Token) (name : Text) : Prop := [.ident name, .assign] <:+: ts

theorem isAssigned_of_target {ts : List Token} {name : Text} (h : target? ts = some name) :
    IsAssigned ts name :=
  ⟨[], body ts, (body_of_target h).symm⟩

theorem IsAssigned.of_suffix {us ts : List Token} {name : Text} (h : IsAssigned us name)
    (hsuffix : us <:+ ts) : IsAssigned ts name :=
  List.IsInfix.trans h hsuffix.isInfix

/-- **What every assignment that is written out keeps, a run keeps.** -/
theorem run_keeps (keeps : Bindings → Prop) (ts : List Token)
    (hinsert : ∀ name v b, IsAssigned ts name → keeps b → keeps (b.insert name v)) (h : keeps b) :
    keeps (run ts b).1 := by
  induction ts using run_induction generalizing b with
  | nil => simpa [run_nil] using h
  | semi ts ih =>
    rw [run_semi]
    exact ih (fun name v b hname => hinsert name v b (hname.of_suffix (List.suffix_cons _ _))) h
  | statement t ts ht ih =>
    rw [run_cons ht]
    cases hrun : Expr.parser.run (body (t :: ts)) with
    | error fault => exact h
    | ok taken =>
      obtain ⟨e, rest⟩ := taken
      simp only
      cases e.eval b with
      | error fault => exact h
      | ok v =>
        have hstored : keeps (store (target? (t :: ts)) v b) := by
          cases htarget : target? (t :: ts) with
          | none => exact h
          | some name => exact hinsert name v b (isAssigned_of_target htarget) h
        rcases next_cases rest with ⟨us, hus, hnext⟩ | hnext
        · have hsuffix : us <:+ t :: ts :=
            (hus.trans (rest_suffix hrun)).trans (List.suffix_cons _ _)
          simp only [hnext]
          exact ih us (hus.trans (rest_suffix hrun))
            (fun name v b hname => hinsert name v b (hname.of_suffix hsuffix)) hstored
        · simp only [hnext]
          exact hstored

/-! ### Sources -/

/-- The identifiers of a source, in order. A source that cannot be cut into tokens has none. -/
def identifiers (source : Text) : List Text :=
  match Token.scan (decodeSpaces source) with
  | .error _ => []
  | .ok ts => ts.filterMap Token.ident?

/-- The name is an identifier of the source directly before the sign of an assignment. -/
def Assigns (source name : Text) : Prop :=
  ∃ ts, Token.scan (decodeSpaces source) = .ok ts ∧ IsAssigned ts name

theorem mem_identifiers {source : Text} {ts : List Token}
    (hscan : Token.scan (decodeSpaces source) = .ok ts) {name : Text} :
    name ∈ identifiers source ↔ .ident name ∈ ts := by
  simp only [identifiers, hscan, List.mem_filterMap]
  constructor
  · rintro ⟨t, ht, hname⟩
    cases t with
    | ident other =>
      obtain rfl := Option.some.inj hname
      exact ht
    | number | str | bool | op | assign | lparen | rparen | semi => cases hname
  · intro h
    exact ⟨.ident name, h, rfl⟩

theorem Assigns.mem_identifiers {source name : Text} (h : Assigns source name) :
    name ∈ identifiers source := by
  obtain ⟨ts, hscan, hassigned⟩ := h
  exact (Statements.mem_identifiers hscan).2 (hassigned.subset List.mem_cons_self)

/-- What every assignment of a source keeps, its execution keeps. -/
theorem execute_keeps (keeps : Bindings → Prop) (source : Text)
    (hinsert : ∀ name v b, Assigns source name → keeps b → keeps (b.insert name v)) (h : keeps b) :
    keeps (execute source b).1 := by
  unfold execute
  cases hscan : Token.scan (decodeSpaces source) with
  | error fault => exact h
  | ok ts => exact run_keeps keeps ts (fun name v b hname => hinsert name v b ⟨ts, hscan, hname⟩) h

theorem evaluate_congr (source : Text) (hshared : ∀ name ∈ identifiers source, shared name)
    (h : Bindings.Agree shared b b') : evaluate source b = evaluate source b' := by
  unfold evaluate
  cases hscan : Token.scan (decodeSpaces source) with
  | error fault => rfl
  | ok ts =>
    simp only [bind, Except.bind]
    cases hexpr : Expr.ofTokens ts with
    | error fault => rfl
    | ok e =>
      obtain ⟨us, rfl, n, -, hderives⟩ := Expr.exists_of_parser (Expr.parser_of_ofTokens hexpr)
      refine e.eval_congr fun name hname => h name (hshared name ((mem_identifiers hscan).2 ?_))
      exact List.mem_append_left _ (hderives.ident_mem name hname)

theorem agree_execute (source : Text) (hshared : ∀ name ∈ identifiers source, shared name)
    (h : Bindings.Agree shared b b') :
    (execute source b).2 = (execute source b').2 ∧
      Bindings.Agree shared (execute source b).1 (execute source b').1 := by
  unfold execute
  cases hscan : Token.scan (decodeSpaces source) with
  | error fault => exact ⟨rfl, h⟩
  | ok ts => exact agree_run ts (fun name hname => hshared name ((mem_identifiers hscan).2 hname)) h

/-- **A source sees and touches only what it names.** On two bindings that agree on its identifiers,
and on any other names, it has the same value and the same fault, and afterwards they agree on these
names again. A name that it does not assign keeps its value, and no name is ever removed. -/
theorem execute_in_scope (source : Text) (hshared : ∀ name ∈ identifiers source, shared name)
    (h : Bindings.Agree shared b b') :
    evaluate source b = evaluate source b' ∧
      (execute source b).2 = (execute source b').2 ∧
      Bindings.Agree shared (execute source b).1 (execute source b').1 ∧
      ∀ name, (¬ Assigns source name → (execute source b).1[name]? = b[name]?) ∧
        (name ∈ b → name ∈ (execute source b).1) := by
  obtain ⟨hfault, hagree⟩ := agree_execute source hshared h
  refine ⟨evaluate_congr source hshared h, hfault, hagree, fun name => ⟨fun hnot => ?_, ?_⟩⟩
  · refine execute_keeps (fun d => d[name]? = b[name]?) source ?_ rfl
    intro other v d hother hd
    have hne : other ≠ name := fun heq => hnot (heq ▸ hother)
    simp [Std.TreeMap.getElem?_insert, hne, hd]
  · exact execute_keeps (fun d => name ∈ d) source fun other v d _ hd => by simp [hd]

/-- A source with an assignment, one that fails, and one that is not reached. -/
def breaking : Text := "x=y;z=missing;w=y".toList

/-- Two bindings that differ in a name which the source does not hold. -/
def withSecret (b : Bool) : Bindings :=
  ((∅ : Bindings).insert ['y'] (.bool true)).insert "secret".toList (.bool b)

/-- The source does not tell the two bindings apart. -/
theorem execute_in_scope_breaking :
    (∀ name ∈ identifiers breaking, name ≠ "secret".toList) ∧
      Bindings.Agree (· ≠ "secret".toList) (withSecret false) (withSecret true) ∧
      (execute breaking (withSecret false)).2 = (execute breaking (withSecret true)).2 ∧
      Bindings.Agree (· ≠ "secret".toList) (execute breaking (withSecret false)).1
        (execute breaking (withSecret true)).1 ∧
      (execute breaking (withSecret false)).1["secret".toList]? = some (.bool false) := by
  have hshared : ∀ name ∈ identifiers breaking, name ≠ "secret".toList := by decide +kernel
  have hagree : Bindings.Agree (· ≠ "secret".toList) (withSecret false) (withSecret true) := by
    intro name hname
    have hne : "secret".toList ≠ name := hname.symm
    simp only [withSecret, Std.TreeMap.getElem?_insert, Std.LawfulEqCmp.compare_eq_iff_eq,
      if_neg hne]
  obtain ⟨-, hfault, hafter, hkeeps⟩ := execute_in_scope breaking hshared hagree
  refine ⟨hshared, hagree, hfault, hafter, ?_⟩
  rw [(hkeeps "secret".toList).1 fun h => hshared _ h.mem_identifiers rfl]
  simp [withSecret]

end Statements

end PadScript
