import PadScript.Proofs.Expr.Lookahead
import PadScript.Proofs.Statement.Basic
import PadScript.Proofs.Statement.Cut

/-!
# Statements that fail

A source is cut into statements at the semicolons outside quotes, and each statement is empty, or
`name = expression`, or an expression. They are carried out in order up to the first that has
another form or whose expression has no value; the bindings are then those that the statements
before it have left, and the failing one has bound nothing. Two things break this rule:

* the tokens of all statements are found before the first one is carried out, so a text that cannot
  be cut into tokens leaves the bindings as they are, also those that earlier statements would have
  changed;
* whether the statement ends behind the expression of an assignment is asked after the name is
  bound, so `x=1 2` fails and binds `x`.

* `Statements.outcome_execute` : **what becomes of a source**, in all cases.
* `Statements.stopsCleanly_iff` : **the rule holds just where neither of the two makes a
  difference.**
-/

namespace PadScript

namespace Statements

/-! ### One statement -/

/-- The tokens of a statement are of one of its forms, and carry `b` to the bindings. -/
inductive Applies (b : Bindings) : List Token → Bindings → Prop
  | empty : Applies b [] b
  | bind {name : Text} {ts : List Token} {e : Expr} {v : Value}
      (h : Grammar.Below (Expr.deepestNesting + 1) .expr ts e) (hv : e.eval b = .ok v) :
      Applies b (.ident name :: .assign :: ts) (b.insert name v)
  | compute {ts : List Token} {e : Expr} {v : Value}
      (h : Grammar.Below (Expr.deepestNesting + 1) .expr ts e) (hv : e.eval b = .ok v) :
      Applies b ts b

variable {b b' c : Bindings} {ts more : List Token}

theorem body_of_target_none (h : target? ts = none) : body ts = ts := by
  unfold target? at h
  split at h
  next => cases h
  next hnot =>
    unfold body
    split
    next name rest => exact absurd rfl (hnot name rest)
    next => rfl

theorem target_of_not_mem (h : .assign ∉ ts) : target? ts = none := by
  unfold target?
  split
  next => simp at h
  next => rfl

theorem body_append (t : Token) (ts more : List Token) :
    body (t :: ts ++ .semi :: more) = body (t :: ts) ++ .semi :: more ∧
      target? (t :: ts ++ .semi :: more) = target? (t :: ts) := by
  cases t with
  | ident name =>
    cases ts with
    | nil => exact ⟨rfl, rfl⟩
    | cons u us => cases u <;> exact ⟨rfl, rfl⟩
  | number | str | bool | op | assign | lparen | rparen | semi => exact ⟨rfl, rfl⟩

/-- The parser takes the whole of an expression. -/
theorem parser_of_below {e : Expr} (h : Grammar.Below (Expr.deepestNesting + 1) .expr ts e) :
    Expr.parser.run ts = .ok (e, []) := by
  have hwhole := (Grammar.levelsRead_withRoom Expr.deepestNesting).whole
  have hrun := hwhole.complete h Grammar.ends_nil
  rwa [List.append_nil] at hrun

theorem next_nil (b : Bindings) : run.next [] b = (b, .ok ()) := by rw [run.next]

theorem Applies.run (h : Applies b ts b') : run ts b = (b', .ok ()) := by
  cases h with
  | empty => exact run_nil b
  | @bind name ts e v h hv =>
    rw [run_cons (by simp)]
    simp only [body, target?, parser_of_below h, hv, next_nil, store]
  | compute h hv =>
    obtain ⟨n, hn, hderives⟩ := h
    obtain ⟨hsemi, hassign⟩ := hderives.not_mem
    obtain ⟨t, us, rfl, -⟩ := hderives.exists_head
    have htarget := target_of_not_mem hassign
    rw [run_cons fun ht => hsemi (by simp [ht])]
    have hparser := parser_of_below ⟨n, hn, hderives⟩
    simp only [body_of_target_none htarget, htarget, hparser, hv, next_nil, store]

theorem next_semi (ts : List Token) (b : Bindings) : run.next (.semi :: ts) b = run ts b := by
  rw [run.next]

theorem next_of_ne_semi {t : Token} (h : t ≠ .semi) :
    run.next (t :: ts) b = (b, .error .unexpectedToken) := by
  rw [run.next.eq_def]
  cases t <;> first | rfl | exact absurd rfl h

/-- The statement binds a value to a name, but something stands behind the expression. -/
def Overruns (ts : List Token) (b : Bindings) (name : Text) (v : Value) : Prop :=
  target? ts = some name ∧
    ∃ e t vs, Expr.parser.run (body ts) = .ok (e, t :: vs) ∧ e.eval b = .ok v

/-- How the run of one statement on `b` ends. -/
inductive Ends (ts : List Token) (b : Bindings) : Bindings × Except EvalError Unit → Prop
  | applied {after : Bindings} (h : Applies b ts after) : Ends ts b (after, .ok ())
  | refused {fault : EvalError} (h : ∀ after, ¬ Applies b ts after)
      (hover : ∀ name v, ¬ Overruns ts b name v) : Ends ts b (b, .error fault)
  | overrun {name : Text} {v : Value} (h : ∀ after, ¬ Applies b ts after)
      (hover : Overruns ts b name v) : Ends ts b (b.insert name v, .error .unexpectedToken)

theorem not_applies_of_error {fault : EvalError} (h : (run ts b).2 = .error fault)
    (after : Bindings) : ¬ Applies b ts after := by
  intro happlies
  rw [happlies.run] at h
  cases h

/-- **One statement is carried out, or refused without an effect, or overruns.** -/
theorem ends_run (hsemi : .semi ∉ ts) : Ends ts b (run ts b) := by
  cases ts with
  | nil =>
    rw [run_nil]
    exact .applied .empty
  | cons t ts =>
    have ht : t ≠ .semi := fun ht => hsemi (by simp [ht])
    have hrun : run (t :: ts) b = _ := run_cons ht b
    have hnot {fault : EvalError} (h : (run (t :: ts) b).2 = .error fault) := not_applies_of_error h
    cases hparser : Expr.parser.run (body (t :: ts)) with
    | error fault =>
      simp only [hparser] at hrun
      rw [hrun]
      refine .refused (hnot (by rw [hrun])) fun name v hover => ?_
      obtain ⟨-, e, u, us, hparser', -⟩ := hover
      cases hparser.symm.trans hparser'
    | ok taken =>
      obtain ⟨e, rest⟩ := taken
      simp only [hparser] at hrun
      cases hv : e.eval b with
      | error fault =>
        simp only [hv] at hrun
        rw [hrun]
        refine .refused (hnot (by rw [hrun])) fun name v hover => ?_
        obtain ⟨-, e', u, us, hparser', hv'⟩ := hover
        cases hparser.symm.trans hparser'
        cases hv.symm.trans hv'
      | ok v =>
        simp only [hv] at hrun
        obtain ⟨us, hus, hbelow⟩ := Expr.exists_of_parser hparser
        cases rest with
        | nil =>
          rw [next_nil] at hrun
          rw [List.append_nil] at hus
          subst hus
          rw [hrun]
          cases htarget : target? (t :: ts) with
          | none =>
            rw [body_of_target_none htarget] at hbelow
            exact .applied (.compute hbelow hv)
          | some name =>
            rw [body_of_target htarget]
            exact .applied (.bind hbelow hv)
        | cons u rest =>
          have hu : u ≠ .semi := by
            rintro rfl
            exact hsemi ((body_suffix _).subset (by simp [hus]))
          rw [next_of_ne_semi hu] at hrun
          rw [hrun]
          cases htarget : target? (t :: ts) with
          | none =>
            refine .refused (hnot (by rw [hrun])) fun name v hover => ?_
            cases htarget.symm.trans hover.1
          | some name => exact .overrun (hnot (by rw [hrun])) ⟨htarget, e, u, rest, hparser, hv⟩

theorem applies_iff (hsemi : .semi ∉ ts) (after : Bindings) :
    Applies b ts after ↔ run ts b = (after, .ok ()) := by
  refine ⟨Applies.run, fun h => ?_⟩
  have hends := ends_run (b := b) hsemi
  rw [h] at hends
  cases hends with
  | applied h => exact h

/-! ### A statement in front of others -/

/-- What a run comes to in front of a semicolon and more tokens, by what it comes to alone. -/
inductive Continues (more : List Token) :
    Bindings × Except EvalError Unit → Bindings × Except EvalError Unit → Prop
  | goesOn {b : Bindings} : Continues more (b, .ok ()) (run more b)
  | ends {b : Bindings} {fault fault' : EvalError} (h : fault' = fault ∨ fault' = fault.atSemi) :
      Continues more (b, .error fault) (b, .error fault')

/-- **A run goes on behind a statement that is carried out, and ends at one that is not.** -/
theorem run_append (hsemi : .semi ∉ ts) :
    Continues more (run ts b) (run (ts ++ .semi :: more) b) := by
  cases ts with
  | nil =>
    rw [run_nil, List.nil_append, run_semi]
    exact .goesOn
  | cons t ts =>
    have ht : t ≠ .semi := fun ht => hsemi (by simp [ht])
    obtain ⟨hbody, htarget⟩ := body_append t ts more
    rw [List.cons_append] at hbody htarget ⊢
    rw [run_cons ht, run_cons ht, hbody, htarget, Expr.stopsAtSemi_parser]
    cases hparser : Expr.parser.run (body (t :: ts)) with
    | error fault => exact .ends (.inr rfl)
    | ok taken =>
      obtain ⟨e, rest⟩ := taken
      simp only [ExprParser.extend]
      cases e.eval b with
      | error fault => exact .ends (.inl rfl)
      | ok v =>
        cases rest with
        | nil =>
          simp only [List.nil_append, next_nil, next_semi]
          exact .goesOn
        | cons u rest =>
          obtain ⟨us, hus, -⟩ := Expr.exists_of_parser hparser
          have hu : u ≠ .semi := by
            rintro rfl
            exact hsemi ((body_suffix _).subset (by simp [hus]))
          simp only [List.cons_append, next_of_ne_semi hu]
          exact .ends (.inl rfl)

/-! ### The statements of a source -/

/-- The texts of the statements of a source. -/
def statements (source : Text) : List Text := cut none (decodeSpaces source)

/-- The text of a statement carries the bindings to others. -/
def Applied (part : Text) (b after : Bindings) : Prop :=
  ∃ ts, Token.scan part = .ok ts ∧ Applies b ts after

/-- The statements are carried out in order, up to the end or to the first that cannot be; `kept`
are the bindings then. -/
inductive Reaches : List Text → Bindings → Bindings → Option Text → Prop
  | finished {b : Bindings} : Reaches [] b b none
  | applied {part : Text} {parts : List Text} {b after kept : Bindings} {stop? : Option Text}
      (h : Applied part b after) (hrest : Reaches parts after kept stop?) :
      Reaches (part :: parts) b kept stop?
  | stopped {part : Text} {parts : List Text} {b : Bindings} (h : ∀ after, ¬ Applied part b after) :
      Reaches (part :: parts) b b (some part)

theorem Applies.unique (h : Applies b ts b') (h' : Applies b ts c) : b' = c := by
  have hrun := h.run.symm.trans h'.run
  simpa using hrun

theorem Applied.unique {part : Text} (h : Applied part b b') (h' : Applied part b c) : b' = c := by
  obtain ⟨ts, hscan, happlies⟩ := h
  obtain ⟨us, hscan', happlies'⟩ := h'
  cases hscan.symm.trans hscan'
  exact happlies.unique happlies'

theorem Reaches.unique {parts : List Text} {kept kept' : Bindings} {stop? stop?' : Option Text}
    (h : Reaches parts b kept stop?) (h' : Reaches parts b kept' stop?') :
    kept = kept' ∧ stop? = stop?' := by
  induction h with
  | finished =>
    cases h'
    exact ⟨rfl, rfl⟩
  | applied h _ ih =>
    cases h' with
    | applied h' hrest' => exact ih (h.unique h' ▸ hrest')
    | stopped h' => exact absurd h (h' _)
  | stopped h =>
    cases h' with
    | applied h' => exact absurd h' (h _)
    | stopped => exact ⟨rfl, rfl⟩

/-- Every part can be cut into tokens. -/
def Readable (parts : List Text) : Prop := ∀ part ∈ parts, ∃ ts, Token.scan part = .ok ts

/-- The first part that cannot be cut into tokens has the fault. -/
inductive FirstFault (fault : EvalError) : List Text → Prop
  | here {part : Text} {parts : List Text} (h : Token.scan part = .error fault) :
      FirstFault fault (part :: parts)
  | later {part : Text} {parts : List Text} {ts : List Token} (h : Token.scan part = .ok ts)
      (hrest : FirstFault fault parts) : FirstFault fault (part :: parts)

theorem FirstFault.not_readable {parts : List Text} {fault : EvalError}
    (h : FirstFault fault parts) : ¬ Readable parts := by
  induction h with
  | here h =>
    intro hread
    obtain ⟨ts, hscan⟩ := hread _ List.mem_cons_self
    cases h.symm.trans hscan
  | later _ _ ih =>
    exact fun hread => ih fun part hpart => hread part (List.mem_cons_of_mem _ hpart)

theorem Reaches.readable {parts : List Text} {kept : Bindings} (h : Reaches parts b kept none) :
    Readable parts := by
  generalize hstop : (none : Option Text) = stop? at h
  induction h with
  | finished => simp [Readable]
  | applied h _ ih =>
    obtain ⟨ts, hscan, -⟩ := h
    intro part hpart
    rcases List.mem_cons.1 hpart with rfl | hpart
    · exact ⟨ts, hscan⟩
    · exact ih hstop part hpart
  | stopped => cases hstop

/-- **A text can be cut into tokens just if all its parts can**, and its fault is that of the first
part that has one. -/
theorem scan_cases (t : Text) :
    (∃ ts, Token.scan t = .ok ts ∧ Readable (cut none t)) ∨
      ∃ fault, Token.scan t = .error fault ∧ FirstFault fault (cut none t) := by
  induction t using cut_induction with
  | last t ht hcut =>
    rw [hcut]
    cases hscan : Token.scan t with
    | error fault => exact .inr ⟨fault, rfl, .here hscan⟩
    | ok ts => exact .inl ⟨ts, rfl, by simp [Readable, hscan]⟩
  | more p rest hp hcut ih =>
    rw [hcut, scan_append hp]
    cases hscan : Token.scan p with
    | error fault => exact .inr ⟨fault, rfl, .here hscan⟩
    | ok ts =>
      rcases ih with ⟨us, hrest, hread⟩ | ⟨fault, hrest, hfault⟩
      · refine .inl ⟨ts ++ .semi :: us, by simp [hrest, Except.bind, Except.map], ?_⟩
        intro part hpart
        rcases List.mem_cons.1 hpart with rfl | hpart
        · exact ⟨ts, hscan⟩
        · exact hread part hpart
      · exact .inr ⟨fault, by simp [hrest, Except.bind, Except.map], .later hscan hfault⟩

/-- How a run ends that has kept `kept` and stands at the statement `stop?`. -/
inductive Outcome (kept : Bindings) : Option Text → Bindings × Except EvalError Unit → Prop
  | finished : Outcome kept none (kept, .ok ())
  | refused {part : Text} {ts : List Token} {fault : EvalError} (hscan : Token.scan part = .ok ts)
      (hover : ∀ name v, ¬ Overruns ts kept name v) :
      Outcome kept (some part) (kept, .error fault)
  | overrun {part : Text} {ts : List Token} {name : Text} {v : Value}
      (hscan : Token.scan part = .ok ts) (hover : Overruns ts kept name v) :
      Outcome kept (some part) (kept.insert name v, .error .unexpectedToken)

theorem Ends.stops {part : Text} (parts : List Text) {after : Bindings} {fault : EvalError}
    (h : Ends ts b (after, .error fault)) (hscan : Token.scan part = .ok ts) :
    Reaches (part :: parts) b b (some part) ∧ Outcome b (some part) (after, .error fault) := by
  have hstop (h : ∀ after, ¬ Applies b ts after) : Reaches (part :: parts) b b (some part) := by
    refine .stopped fun after happlied => ?_
    obtain ⟨us, hscan', happlies⟩ := happlied
    cases hscan.symm.trans hscan'
    exact h after happlies
  cases h with
  | refused h hover => exact ⟨hstop h, .refused hscan hover⟩
  | overrun h hover => exact ⟨hstop h, .overrun hscan hover⟩

/-- The fault of a statement may have another name in front of a semicolon. -/
theorem Outcome.atSemi {kept after : Bindings} {part : Text} {fault fault' : EvalError}
    (h : Outcome kept (some part) (after, .error fault))
    (hfault : fault' = fault ∨ fault' = fault.atSemi) :
    Outcome kept (some part) (after, .error fault') := by
  cases h with
  | refused hscan hover => exact .refused hscan hover
  | overrun hscan hover =>
    obtain rfl : fault' = .unexpectedToken := by simpa [EvalError.atSemi] using hfault
    exact .overrun hscan hover

/-- **A run goes from statement to statement**, up to the end or to the first that is not carried
out. -/
theorem exists_reaches (t : Text) (hscan : Token.scan t = .ok ts) :
    ∃ kept stop?, Reaches (cut none t) b kept stop? ∧ Outcome kept stop? (run ts b) := by
  induction t using cut_induction generalizing b ts with
  | last t ht hcut =>
    have hends := ends_run (b := b) (ht.semi_not_mem hscan)
    rw [hcut]
    rcases hrun : run ts b with ⟨after, fault | ok⟩
    · rw [hrun] at hends
      exact ⟨b, some t, hends.stops [] hscan⟩
    · have happlies := (applies_iff (ht.semi_not_mem hscan) after).2 hrun
      exact ⟨after, none, .applied ⟨ts, hscan, happlies⟩ .finished, .finished⟩
  | more p rest hp hcut ih =>
    rw [scan_append hp] at hscan
    cases hpart : Token.scan p with
    | error fault => simp [hpart, Except.bind] at hscan
    | ok us =>
      cases hrest : Token.scan rest with
      | error fault => simp [hpart, hrest, Except.bind, Except.map] at hscan
      | ok vs =>
        have hsemi := hp.semi_not_mem hpart
        have hends := ends_run (b := b) hsemi
        have hcontinues : Continues vs (run us b) _ := run_append hsemi
        simp only [hpart, hrest, Except.bind, Except.map, Except.ok.injEq] at hscan
        rw [hscan] at hcontinues
        rw [hcut]
        generalize run ts b = whole at hcontinues ⊢
        rcases hrun : run us b with ⟨after, fault | ok⟩
        · rw [hrun] at hends hcontinues
          obtain ⟨hreaches, houtcome⟩ := hends.stops (cut none rest) hpart
          cases hcontinues with
          | ends hfault => exact ⟨b, some p, hreaches, houtcome.atSemi hfault⟩
        · rw [hrun] at hcontinues
          have happlies := (applies_iff hsemi after).2 hrun
          cases hcontinues with
          | goesOn =>
            obtain ⟨kept, stop?, hreaches, houtcome⟩ := ih hrest (b := after)
            exact ⟨kept, stop?, .applied ⟨us, hpart, happlies⟩ hreaches, houtcome⟩

/-- **What becomes of a source.** If a part cannot be cut into tokens, nothing is carried out. Else
the statements are carried out in order up to the first that cannot be, and what they have bound is
kept; to that the failing one adds a name just if it overruns. -/
theorem outcome_execute (source : Text) (b : Bindings) :
    (∃ fault, FirstFault fault (statements source) ∧ execute source b = (b, .error fault)) ∨
      Readable (statements source) ∧ ∃ kept stop?,
        Reaches (statements source) b kept stop? ∧ Outcome kept stop? (execute source b) := by
  unfold execute statements
  rcases scan_cases (decodeSpaces source) with ⟨ts, hscan, hread⟩ | ⟨fault, hscan, hfault⟩
  · rw [hscan]
    exact .inr ⟨hread, exists_reaches _ hscan⟩
  · rw [hscan]
    exact .inl ⟨fault, hfault, rfl⟩

/-! ### The rule and its limits -/

/-- The statements are carried out in order, and if one fails, the bindings are those that the
statements before the first failing one have left. -/
def StopsCleanly (source : Text) (b : Bindings) : Prop :=
  ∃ stop?, Reaches (statements source) b (execute source b).1 stop? ∧
    ((execute source b).2 = .ok () ↔ stop? = none)

/-- If the statement at which a run stands overruns, the name has that value already. -/
def AddsNothing (kept : Bindings) (stop? : Option Text) : Prop :=
  ∀ part ts name v, stop? = some part → Token.scan part = .ok ts → Overruns ts kept name v →
    kept.insert name v = kept

theorem Overruns.unique {name name' : Text} {v v' : Value} (h : Overruns ts b name v)
    (h' : Overruns ts b name' v') : name = name' ∧ v = v' := by
  obtain ⟨hname, e, t, us, hparser, hv⟩ := h
  obtain ⟨hname', e', t', us', hparser', hv'⟩ := h'
  cases hname.symm.trans hname'
  cases hparser.symm.trans hparser'
  cases hv.symm.trans hv'
  exact ⟨rfl, rfl⟩

/-- What a run leaves is what was kept, just where no overrun adds to it. -/
theorem Outcome.kept_iff {kept : Bindings} {stop? : Option Text}
    {ended : Bindings × Except EvalError Unit} (h : Outcome kept stop? ended) :
    (ended.1 = kept ↔ AddsNothing kept stop?) ∧ (ended.2 = .ok () ↔ stop? = none) := by
  cases h with
  | finished => exact ⟨iff_of_true rfl (by rintro part ts name v ⟨⟩), by simp⟩
  | refused hscan hover =>
    refine ⟨iff_of_true rfl ?_, by simp⟩
    rintro part ts name v ⟨⟩ hscan' hover'
    cases hscan.symm.trans hscan'
    exact absurd hover' (hover name v)
  | overrun hscan hover =>
    refine ⟨⟨?_, fun hadds => hadds _ _ _ _ rfl hscan hover⟩, by simp⟩
    rintro hkept part ts name v ⟨⟩ hscan' hover'
    cases hscan.symm.trans hscan'
    obtain ⟨rfl, rfl⟩ := hover.unique hover'
    exact hkept

/-- **The rule holds just where all parts can be cut into tokens and the failing one does not
overrun**, or where this makes no difference: the statements up to the first failing one leave the
bindings as they are, or the one that overruns binds what is bound already. -/
theorem stopsCleanly_iff (source : Text) (b : Bindings) :
    StopsCleanly source b ↔
      ∃ kept stop?, Reaches (statements source) b kept stop? ∧
        (Readable (statements source) → AddsNothing kept stop?) ∧
        (¬ Readable (statements source) → kept = b) := by
  unfold StopsCleanly
  rcases outcome_execute source b with
    ⟨fault, hfault, hexecute⟩ | ⟨hread, kept, stop?, hreaches, houtcome⟩
  · have hread := hfault.not_readable
    simp only [hexecute]
    constructor
    · rintro ⟨stop?, hreaches, -⟩
      exact ⟨b, stop?, hreaches, fun h => absurd h hread, fun _ => rfl⟩
    · rintro ⟨kept, stop?, hreaches, -, hkept⟩
      obtain rfl := hkept hread
      refine ⟨stop?, hreaches, iff_of_false (by simp) ?_⟩
      rintro rfl
      exact hread hreaches.readable
  · obtain ⟨hkept, hstop⟩ := houtcome.kept_iff
    constructor
    · rintro ⟨stop?', hreaches', -⟩
      obtain ⟨hsame, rfl⟩ := hreaches.unique hreaches'
      exact ⟨kept, stop?, hreaches, fun _ => hkept.1 hsame.symm, fun h => absurd hread h⟩
    · rintro ⟨kept', stop?', hreaches', hadds, -⟩
      obtain ⟨rfl, rfl⟩ := hreaches.unique hreaches'
      exact ⟨stop?, (hkept.2 (hadds hread)).symm ▸ hreaches, hstop⟩

/-- A run without a fault has carried out every statement. -/
theorem reaches_of_ok (source : Text) (h : (execute source b).2.isOk) :
    Reaches (statements source) b (execute source b).1 none := by
  rcases outcome_execute source b with ⟨fault, -, hexecute⟩ | ⟨-, kept, stop?, hreaches, houtcome⟩
  · rw [hexecute] at h
    cases h
  · generalize execute source b = ended at h houtcome ⊢
    cases houtcome with
    | finished => exact hreaches
    | refused | overrun => cases h

/-- An assignment. -/
def assigning : Text := "x=true".toList

/-- An assignment with another value behind it. -/
def overrunning : Text := "x=true false".toList

/-- An assignment in front of a sign that begins no token. -/
def unreadable : Text := "x=true;$".toList

/-- The first of the two binds the name and the second does not; by the rule it is the other way. -/
theorem not_stopsCleanly_overrunning :
    ¬ StopsCleanly overrunning ∅ ∧ ¬ StopsCleanly unreadable ∅ := by
  have hassigned : Reaches [assigning] ∅ (execute assigning ∅).1 none :=
    reaches_of_ok assigning (by decide +kernel)
  have hbound : (execute assigning ∅).1.contains ['x'] = true := by decide +kernel
  generalize (execute assigning ∅).1 = assigned at hassigned hbound
  constructor
  · rintro ⟨stop?, hreaches, hstop⟩
    have hbound : (execute overrunning ∅).1.contains ['x'] = true := by decide +kernel
    have hfails : (execute overrunning ∅).2.isOk = false := by decide +kernel
    have hparts : statements overrunning = [overrunning] := by decide +kernel
    rw [hparts] at hreaches
    generalize (execute overrunning ∅).1 = kept at hreaches hbound
    cases hreaches with
    | applied _ hrest =>
      cases hrest with
      | finished => simp [hstop.2 rfl, Except.isOk, Except.toBool] at hfails
    | stopped => simp at hbound
  · rintro ⟨stop?, hreaches, hstop⟩
    have hunbound : (execute unreadable ∅).1.contains ['x'] = false := by decide +kernel
    have hfails : (execute unreadable ∅).2.isOk = false := by decide +kernel
    have hparts : statements unreadable = [assigning, ['$']] := by decide +kernel
    rw [hparts] at hreaches
    generalize (execute unreadable ∅).1 = kept at hreaches hunbound
    cases hassigned with
    | applied happlied hnil =>
      cases hnil with
      | finished =>
        cases hreaches with
        | applied happlied' hrest =>
          obtain rfl := happlied.unique happlied'
          cases hrest with
          | applied _ hrest =>
            cases hrest with
            | finished => simp [hstop.2 rfl, Except.isOk, Except.toBool] at hfails
          | stopped => simp [hbound] at hunbound
        | stopped h => exact h _ happlied

end Statements

end PadScript
