import PadScript.Proofs.Cursor.Nesting

/-!
# Every cursor runs dry

However the macros of a library enter each other, and whatever was called on a cursor before, a call
of `Cursor.nextLine` reads finitely many rows, and finitely many calls give all the lines there are.
The measure is `Cursor.potential`: it pays for every row (`Cursor.reads_nextLine`), so it bounds the
rows of one call and the number of calls alike.

* `Cursor.Reads` : the rows that a call reads, one by one.
* `Cursor.exists_reads_and_runsDry` : **a call ends, and calls run dry**; from then on a call
  answers that there is no line and changes nothing.
-/

namespace PadScript

/-- The line that a step gives, if it gives one. -/
def Move.shown : Move → List Text
  | emit line => [line]
  | _ => []

namespace Cursor

/-- The rows that a call of `nextLine` reads: from the first cursor, reading that many rows, it
comes to the answer and the second cursor. -/
inductive Reads : Cursor → Nat → Option Text → Cursor → Prop
  /-- There is no row. -/
  | finished {c d : Cursor} : c.step = (.finished, d) → Reads c 0 none d
  /-- The row is played. -/
  | emit {c d : Cursor} {line : Text} : c.step = (.emit line, d) → Reads c 1 (some line) d
  /-- The row is not played, and reading goes on. -/
  | silent {c d e : Cursor} {n : Nat} {answer : Option Text} :
      c.step = (.silent, d) → Reads d n answer e → Reads c (n + 1) answer e

theorem potential_lt_of_step {c d : Cursor} {m : Move} (h : c.step = (m, d)) (hm : m ≠ .finished) :
    d.potential < c.potential := by
  have hlt := potential_step_lt (c := c)
  rw [h] at hlt
  exact hlt hm

/-- At the end a step changes nothing. -/
theorem eq_of_step_finished {c d : Cursor} (h : c.step = (.finished, d)) : d = c := by
  cases hline : c.position.current.action? with
  | none =>
    rw [step_of_none hline] at h
    exact (Prod.mk.inj h).2.symm
  | some line =>
    cases hd : Directive.ofLine line with
    | jump label suffix => simp [step_of_jump hline hd] at h
    | body => simp [step_of_body hline hd] at h
    | exec source => simp [step_of_exec hline hd] at h
    | action given => simp [step_of_action hline hd] at h

/-- A call reads finitely many rows, and the potential pays for each of them. -/
theorem reads_nextLine (c : Cursor) :
    ∃ n, Reads c n c.nextLine.1 c.nextLine.2 ∧ n + c.nextLine.2.potential ≤ c.potential := by
  fun_induction nextLine c with
  | case1 c d hstep =>
    obtain rfl := eq_of_step_finished hstep
    exact ⟨0, .finished hstep, by simp⟩
  | case2 c d hstep ih =>
    obtain ⟨n, hreads, hn⟩ := ih
    have hlt := potential_lt_of_step hstep (by simp)
    exact ⟨n + 1, .silent hstep hreads, by omega⟩
  | case3 c line d hstep =>
    have hlt := potential_lt_of_step hstep (by simp)
    exact ⟨1, .emit hstep, by simp only; omega⟩

theorem Reads.pos_of_some {c d : Cursor} {n : Nat} {line : Text} (h : Reads c n (some line) d) :
    0 < n := by
  cases h <;> omega

/-- Giving a line brings the end nearer. -/
theorem potential_lt_of_nextLine {c d : Cursor} {line : Text} (h : c.nextLine = (some line, d)) :
    d.potential < c.potential := by
  obtain ⟨n, hreads, hn⟩ := reads_nextLine c
  rw [h] at hreads hn
  have hpos := hreads.pos_of_some
  simp only at hn
  omega

/-- Once there is no line, there is none ever after, and a call changes nothing. -/
theorem nextLine_of_none {c d : Cursor} (h : c.nextLine = (none, d)) :
    d.nextLine = (none, d) := by
  fun_induction nextLine c with
  | case1 c e hstep =>
    obtain rfl := eq_of_step_finished hstep
    obtain rfl := (Prod.mk.inj h).2
    exact nextLine_of_finished hstep
  | case2 c e hstep ih => exact ih h
  | case3 c line e hstep => simp at h

/-! ### All the lines -/

/-- A cursor gives these lines and then none, and it is left like this. -/
inductive Gives : Cursor → List Text → Cursor → Prop
  /-- There is no line. -/
  | finished {c d : Cursor} : c.nextLine = (none, d) → Gives c [] d
  /-- There is a line, and others follow. -/
  | line {c d e : Cursor} {line : Text} {lines : List Text} :
      c.nextLine = (some line, d) → Gives d lines e → Gives c (line :: lines) e

section Gives

variable {c d e : Cursor} {line : Text} {lines : List Text}

theorem nextLine_of_emit (h : c.step = (.emit line, d)) : c.nextLine = (some line, d) := by
  rw [nextLine]
  split <;> simp_all

theorem nextLine_of_silent (h : c.step = (.silent, d)) : c.nextLine = d.nextLine := by
  rw [nextLine]
  split <;> simp_all

theorem Gives.of_emit (h : d.Gives lines e) (hemit : c.step = (.emit line, d)) :
    c.Gives (line :: lines) e :=
  .line (nextLine_of_emit hemit) h

theorem Gives.of_silent (h : d.Gives lines e) (hsilent : c.step = (.silent, d)) :
    c.Gives lines e := by
  have hnext := nextLine_of_silent hsilent
  cases h with
  | finished hnone => exact .finished (hnext.trans hnone)
  | line hline hgives => exact .line (hnext.trans hline) hgives

/-- What a step gives comes before what is given after it. -/
theorem Gives.of_step (h : d.Gives lines e) {m : Move} (hstep : c.step = (m, d))
    (hm : m ≠ .finished) : c.Gives (m.shown ++ lines) e := by
  cases m with
  | finished => exact absurd rfl hm
  | silent => exact h.of_silent hstep
  | emit line => exact h.of_emit hstep

/-- The potential pays for every line. -/
theorem Gives.length_le (h : c.Gives lines d) : lines.length ≤ c.potential := by
  induction h with
  | finished => exact Nat.zero_le _
  | line hline _ ih =>
    have hlt := potential_lt_of_nextLine hline
    rw [List.length_cons]
    omega

/-- Taking lines until there are none gives all of them. -/
theorem Gives.drain_eq (h : c.Gives lines d) (extra : Nat) :
    c.drain (lines.length + extra + 1) = (lines, d) := by
  induction h with
  | finished hnone => exact drain_of_none hnone _
  | line hline _ ih => rw [List.length_cons, Nat.add_right_comm _ 1, drain_of_some hline, ih]

end Gives

/-! ### Running dry -/

/-- The cursor after that many calls of `nextLine`. -/
def afterLines (c : Cursor) (n : Nat) : Cursor := c.after (.replicate n .nextLine)

@[simp] theorem afterLines_zero (c : Cursor) : c.afterLines 0 = c := rfl

@[simp] theorem afterLines_succ (c : Cursor) (n : Nat) :
    c.afterLines (n + 1) = c.nextLine.2.afterLines n := rfl

theorem afterLines_of_none {c : Cursor} (h : c.nextLine = (none, c)) (n : Nat) :
    c.afterLines n = c := by
  induction n with
  | zero => rfl
  | succ n ih => rw [afterLines_succ, h, ih]

/-- After `k` lines there is none any more, and from then on calls change nothing. -/
structure RunsDry (c : Cursor) (k : Nat) : Prop where
  /-- The calls before give lines. -/
  gives : ∀ i < k, (c.afterLines i).nextLine.1 ≠ none
  /-- The next one gives none. -/
  dry : (c.afterLines k).nextLine.1 = none
  /-- All later ones give none either, and change nothing. -/
  stays : ∀ more, (c.afterLines (k + 1 + more)).nextLine = (none, c.afterLines (k + 1))

theorem runsDry_of_none {c d : Cursor} (h : c.nextLine = (none, d)) : c.RunsDry 0 where
  gives i hi := absurd hi (Nat.not_lt_zero i)
  dry := by simp [h]
  stays more := by
    have hd := nextLine_of_none h
    rw [Nat.add_right_comm, afterLines_succ, afterLines_succ, h, afterLines_zero,
      afterLines_of_none hd, hd]

theorem runsDry_of_some {c d : Cursor} {line : Text} (h : c.nextLine = (some line, d)) {k : Nat}
    (hd : d.RunsDry k) : c.RunsDry (k + 1) where
  gives i hi := by
    cases i with
    | zero => simp [h]
    | succ i =>
      rw [afterLines_succ, h]
      exact hd.gives i (by omega)
  dry := by
    rw [afterLines_succ, h]
    exact hd.dry
  stays more := by
    rw [Nat.add_right_comm (k + 1), afterLines_succ, afterLines_succ, h]
    exact hd.stays more

/-- Every cursor runs dry: its potential bounds the lines that it is still to give. -/
theorem exists_runsDry (c : Cursor) : ∃ k ≤ c.potential, c.RunsDry k := by
  -- giving a line lowers the potential, however many rows it took
  induction hp : c.potential using Nat.strongRecOn generalizing c with
  | ind p ih =>
    cases hnext : c.nextLine with
    | mk answer d =>
      cases answer with
      | none => exact ⟨0, Nat.zero_le _, runsDry_of_none hnext⟩
      | some line =>
        have hlt := potential_lt_of_nextLine hnext
        obtain ⟨k, hk, hdry⟩ := ih d.potential (hp ▸ hlt) d rfl
        exact ⟨k + 1, by omega, runsDry_of_some hnext hdry⟩

/-- **A call ends, and calls run dry.** After any calls on a new cursor, taking the next line reads
finitely many rows; taking lines gives finitely many; and when there is none any more, further calls
say so and change nothing. -/
theorem exists_reads_and_runsDry (library : Library) (owner : Owner) (t : Track) (params : Params)
    (calls : List Call) :
    let c := (ofTrack library owner t params).after calls
    (∃ n ≤ c.potential, Reads c n c.nextLine.1 c.nextLine.2) ∧ ∃ k ≤ c.potential, c.RunsDry k := by
  intro c
  obtain ⟨n, hreads, hn⟩ := reads_nextLine c
  exact ⟨⟨n, by omega, hreads⟩, exists_runsDry c⟩

end Cursor

end PadScript
