import PadScript.Proofs.Cursor.Replay

/-!
# Going back to the start

`Cursor.rewind` is the full reset of a cursor, in contrast to `Cursor.startCycle`, the reset for the
next cycle. A cursor that goes back to the start of its macro is a new cursor but for one thing: it
keeps the position that the next cycle starts from. The first row `body:` that it comes to replaces
it, and from then on nothing is left of what was before. Until then a cycle that is started leads
back into the run before (`Cursor.exists_rewind_ne`).

* `Position.advance_ne_atHead` : going behind a row does not lead to the start of the macro.
* `Cursor.hasMarked_step_iff` : so a run that starts its cycles elsewhere has come to a row `body:`.
* `Cursor.step_withOld` : a step reads the same row, whatever mark an unmarked run is given.
* `Cursor.answers_rewind` : **after going back, a cursor answers everything that is asked of it as a
  new one with its parameters does, until a cycle is started that the new one has no mark for.**
-/

namespace PadScript

namespace Position

/-- Every frame returns behind a row. -/
def ReturnsBehind (p : Position) : Prop := ∀ f ∈ p.frames, 0 < f.returnTo.index

variable {library : Library} {root : Place} {p : Position} {line : Text}

theorem returnsBehind_atHead (head : Place) : (atHead head).ReturnsBehind := by
  simp [ReturnsBehind, atHead]

theorem index_next_pos (hline : p.current.action? = some line) : 0 < p.current.next.index := by
  have hlt := Place.index_lt_of_action? hline
  simp only [Place.next]
  omega

/-- Leaving finished tracks closes frames and opens none. -/
theorem frames_leave_suffix (current : Place) (n : Nat) (frames : List Frame) :
    (leave current n frames).frames <:+ frames := by
  induction frames generalizing current n with
  | nil =>
    unfold leave
    split
    · exact List.suffix_refl _
    · split <;> exact List.suffix_refl _
  | cons f rest ih =>
    unfold leave
    split
    · exact List.suffix_refl _
    · split
      · exact List.suffix_refl _
      · exact (ih ..).trans (List.suffix_cons ..)

theorem ReturnsBehind.advance (h : p.ReturnsBehind) : p.advance.ReturnsBehind :=
  fun f hf => h f ((frames_leave_suffix ..).subset hf)

theorem ReturnsBehind.jump (h : p.ReturnsBehind) (hline : p.current.action? = some line)
    (label : Text) (times : Int) : (p.jump library label times).ReturnsBehind := by
  unfold Position.jump
  split
  · split
    · intro f hf
      rcases List.mem_cons.1 hf with rfl | hf
      · exact index_next_pos hline
      · exact h f hf
    · exact h.advance
  · exact h.advance

/-- Leaving finished tracks leads to the start of the macro only from there: its own track is played
once, and every frame returns behind a row. -/
theorem index_leave_pos {current : Place} {n : Nat} {frames : List Frame}
    (h : Nested library root current n frames) (hindex : 0 < current.index)
    (hframes : ∀ f ∈ frames, 0 < f.returnTo.index)
    (hnone : (leave current n frames).frames = []) :
    0 < (leave current n frames).current.index := by
  induction frames generalizing current n with
  | nil =>
    cases h with
    | root =>
      unfold leave
      split
      · exact hindex
      · exact hindex
  | cons f rest ih =>
    unfold leave at hnone ⊢
    split at hnone
    next => simp at hnone
    next hfin =>
      split at hnone
      next => simp at hnone
      next hn =>
        rw [if_neg hfin, if_neg hn]
        cases h with
        | entered _ _ _ _ _ _ hbelow =>
          exact ih hbelow (hframes f List.mem_cons_self)
            (fun g hg => hframes g (List.mem_cons_of_mem _ hg)) hnone

/-- **Going behind a row does not lead to the start of the macro.** -/
theorem advance_ne_atHead (h : p.Sound library root) (hreturns : p.ReturnsBehind)
    (hline : p.current.action? = some line) {head : Place} (hhead : head.index = 0) :
    p.advance ≠ .atHead head := by
  intro heq
  have hpos := index_leave_pos h.levels.next (index_next_pos hline) hreturns
    (show p.advance.frames = [] by rw [heq]; rfl)
  have hzero : p.advance.current.index = 0 := by rw [heq]; exact hhead
  exact absurd hzero (Nat.ne_of_gt hpos)

end Position

namespace Cursor

variable {library : Library} {head : Place} {c d : Cursor}

/-- A cursor that can come about in a run, with what its frames return to. -/
structure Traced (library : Library) (head : Place) (c : Cursor) : Prop where
  /-- The labels lead to the tracks of the run. -/
  library : c.library = library
  /-- The run starts at the same place. -/
  head : c.head = head
  /-- The levels are right. -/
  sound : c.Sound
  /-- Every frame returns behind a row. -/
  position : c.position.ReturnsBehind
  /-- So does every frame of the next cycle. -/
  body : c.body.ReturnsBehind

theorem traced_ofTrack (library : Library) (owner : Owner) (t : Track) (params : Params) :
    (ofTrack library owner t params).Traced library (t.headOf owner) :=
  ⟨rfl, rfl, sound_ofTrack .., Position.returnsBehind_atHead _, Position.returnsBehind_atHead _⟩

theorem Traced.markBody (h : c.Traced library head) : c.markBody.Traced library head := by
  refine ⟨h.library, h.head, sound_markBody h.sound, h.position.advance, ?_⟩
  simp only [Cursor.markBody]
  split
  · exact h.body
  · exact h.position.advance

theorem Traced.step (h : c.Traced library head) : c.step.2.Traced library head := by
  have hsound := sound_step h.sound
  cases hline : c.position.current.action? with
  | none =>
    rw [step_of_none hline]
    exact h
  | some line =>
    cases hd : Directive.ofLine line with
    | jump label suffix =>
      rw [step_of_jump hline hd] at hsound ⊢
      exact ⟨h.library, h.head, hsound, h.position.jump hline label _, h.body⟩
    | body =>
      rw [step_of_body hline hd]
      exact h.markBody
    | exec source =>
      rw [step_of_exec hline hd] at hsound ⊢
      exact ⟨h.library, h.head, hsound, h.position.advance, h.body⟩
    | action given =>
      rw [step_of_action hline hd] at hsound ⊢
      exact ⟨h.library, h.head, hsound, h.position.advance, h.body⟩

theorem Traced.nextLine (h : c.Traced library head) : c.nextLine.2.Traced library head := by
  fun_induction Cursor.nextLine c with
  | case1 c d hstep => simpa [hstep] using h.step
  | case2 c d hstep ih => exact ih (by simpa [hstep] using h.step)
  | case3 c line d hstep => simpa [hstep] using h.step

theorem Traced.call (h : c.Traced library head) (k : Call) :
    (c.call k).Traced library head := by
  cases k with
  | nextLine => exact h.nextLine
  | startCycle => exact ⟨h.library, h.head, sound_startCycle h.sound, h.body, h.body⟩
  | rewind =>
    exact ⟨h.library, h.head, sound_rewind h.sound, Position.returnsBehind_atHead _, h.body⟩
  | exec source => exact ⟨h.library, h.head, sound_exec h.sound source, h.position, h.body⟩

theorem Traced.after (h : c.Traced library head) (calls : List Call) :
    (c.after calls).Traced library head := by
  induction calls generalizing c with
  | nil => exact h
  | cons k rest ih => exact ih (h.call k)

/-! ### Marks -/

/-- The next cycle starts behind a row `body:` that the run has come to, and not where the macro
starts. -/
def HasMarked (c : Cursor) : Prop := c.body ≠ .atHead c.head

instance (c : Cursor) : Decidable c.HasMarked := inferInstanceAs (Decidable (_ ≠ _))

/-- The cursor with a mark of another run in place of the start of the macro. Its own mark it
keeps. -/
def withOld (c : Cursor) (old : Position) : Cursor :=
  c.markedAt (if c.HasMarked then c.body else old)

theorem withOld_of_hasMarked (h : c.HasMarked) (old : Position) : c.withOld old = c := by
  simp only [withOld, if_pos h]
  rfl

theorem withOld_of_not_hasMarked (h : ¬ c.HasMarked) (old : Position) :
    c.withOld old = c.markedAt old := by
  rw [withOld, if_neg h]

/-- The start of the macro is where an unmarked run starts its cycles anyway. -/
theorem withOld_atHead (c : Cursor) : c.withOld (.atHead c.head) = c := by
  by_cases h : c.HasMarked
  · exact withOld_of_hasMarked h _
  · rw [withOld_of_not_hasMarked h, ← Decidable.not_not.1 h]
    rfl

/-- Nothing but the mark tells a cursor that went back to its start from a new one. -/
theorem Traced.rewind_eq_withOld {owner : Owner} {t : Track}
    (h : c.Traced library (t.headOf owner)) :
    c.rewind = (ofTrack library owner t c.params).withOld c.body := by
  rw [withOld_of_not_hasMarked (by simp [HasMarked, ofTrack])]
  simp only [rewind, markedAt, ofTrack, h.library, h.head]

/-- A row `body:` that is not the last marks something. -/
theorem hasMarked_markBody (h : c.Traced library head) {line : Text}
    (hline : c.position.current.action? = some line)
    (hend : c.position.advance.current.isFinished = false) : c.markBody.HasMarked := by
  simp only [HasMarked, markBody, hend]
  exact Position.advance_ne_atHead h.sound.position h.position hline h.sound.head

/-- **A run has marked something if it has come to a row `body:` that is not the last.** -/
theorem hasMarked_step_iff (h : c.Traced library head) :
    c.step.2.HasMarked ↔ c.HasMarked ∨ ∃ line, c.position.current.action? = some line ∧
      Directive.ofLine line = .body ∧ c.position.advance.current.isFinished = false := by
  cases hline : c.position.current.action? with
  | none => simp [step_of_none hline]
  | some line =>
    cases hd : Directive.ofLine line with
    | jump label suffix => simp [step_of_jump hline hd, HasMarked, hd]
    | exec source => simp [step_of_exec hline hd, HasMarked, exec, hd]
    | action given => simp [step_of_action hline hd, HasMarked, hd]
    | body =>
      rw [step_of_body hline hd]
      cases hend : c.position.advance.current.isFinished with
      | true => simp [markBody, HasMarked, hend]
      | false => simp [hasMarked_markBody h hline hend, hd]

/-- **A step reads the same row, whatever mark an unmarked run is given.** -/
theorem step_withOld (h : c.Traced library head) (old : Position) :
    (c.withOld old).step = (c.step.1, c.step.2.withOld old) := by
  cases hline : c.position.current.action? with
  | none => rw [step_of_none hline, step_of_none (c := c.withOld old) hline]
  | some line =>
    cases hd : Directive.ofLine line with
    | jump label suffix =>
      rw [step_of_jump hline hd, step_of_jump (c := c.withOld old) hline hd]
      rfl
    | body =>
      rw [step_of_body hline hd, step_of_body (c := c.withOld old) hline hd]
      refine congrArg _ ?_
      cases hend : c.position.advance.current.isFinished with
      | true =>
        by_cases hhead : c.body = .atHead c.head <;>
          simp [markBody, withOld, markedAt, HasMarked, hend, hhead]
      | false =>
        rw [withOld_of_hasMarked (hasMarked_markBody h hline hend)]
        simp [markBody, withOld, markedAt, hend]
    | exec source =>
      rw [step_of_exec hline hd, step_of_exec (c := c.withOld old) hline hd]
      rfl
    | action given =>
      rw [step_of_action hline hd, step_of_action (c := c.withOld old) hline hd]
      rfl

theorem nextLine_withOld (h : c.Traced library head) (old : Position) :
    (c.withOld old).nextLine = (c.nextLine.1, c.nextLine.2.withOld old) := by
  have hstep := step_withOld h old
  fun_induction Cursor.nextLine c with
  | case1 c d hd => exact nextLine_of_finished (by rw [hstep, hd])
  | case2 c d hd ih =>
    rw [nextLine_of_silent (d := d.withOld old) (by rw [hstep, hd])]
    have htraced : d.Traced library head := by simpa [hd] using h.step
    exact ih htraced (step_withOld htraced old)
  | case3 c line d hd => exact nextLine_of_emit (by rw [hstep, hd])

/-! ### What is asked of a cursor -/

/-- What can be asked of a cursor. -/
inductive Ask where
  /-- A call, which may change it. -/
  | call (c : Call)
  /-- How many frames are open. -/
  | depth
  /-- Whether nothing is left. -/
  | isFinished
deriving DecidableEq, Repr

/-- What a cursor answers. -/
inductive Answer where
  /-- The next line, if there is one. -/
  | line (line : Option Text)
  /-- The call has been made. -/
  | done
  /-- The number of open frames. -/
  | depth (n : Nat)
  /-- Nothing is left. -/
  | isFinished (b : Bool)
deriving DecidableEq, Repr

/-- What a call answers. -/
def reply (c : Cursor) : Call → Answer
  | .nextLine => .line c.nextLine.1
  | _ => .done

/-- The answer, and the cursor that is left. -/
def ask (c : Cursor) : Ask → Answer × Cursor
  | .call k => (c.reply k, c.call k)
  | .depth => (.depth c.depth, c)
  | .isFinished => (.isFinished c.isFinished, c)

/-- The answers, in order. -/
def answers : Cursor → List Ask → List Answer
  | _, [] => []
  | c, a :: rest => (c.ask a).1 :: (c.ask a).2.answers rest

/-- The cursor that is left in the end. -/
def asked (c : Cursor) (asks : List Ask) : Cursor := asks.foldl (fun c a => (c.ask a).2) c

/-- Cycles are started only when there is a mark to start them from. -/
def ReturnsMarked : Cursor → List Ask → Prop
  | _, [] => True
  | c, a :: rest => (a = .call .startCycle → c.HasMarked) ∧ (c.ask a).2.ReturnsMarked rest

instance decidableReturnsMarked :
    (c : Cursor) → (asks : List Ask) → Decidable (c.ReturnsMarked asks)
  | _, [] => .isTrue trivial
  | c, a :: rest =>
    have := decidableReturnsMarked (c.ask a).2 rest
    inferInstanceAs (Decidable (_ ∧ _))

theorem answers_append (c : Cursor) (first rest : List Ask) :
    c.answers (first ++ rest) = c.answers first ++ (c.asked first).answers rest := by
  induction first generalizing c with
  | nil => rfl
  | cons a first ih => simp only [List.cons_append, answers, asked, List.foldl_cons, ih]

theorem Traced.ask (h : c.Traced library head) (a : Ask) :
    (c.ask a).2.Traced library head := by
  cases a with
  | call k => exact h.call k
  | depth => exact h
  | isFinished => exact h

/-- One question: only starting a cycle looks at the mark. -/
theorem ask_withOld (h : c.Traced library head) (old : Position) {a : Ask}
    (ha : a = .call .startCycle → c.HasMarked) :
    (c.withOld old).ask a = ((c.ask a).1, (c.ask a).2.withOld old) := by
  cases a with
  | call k =>
    cases k with
    | nextLine => simp only [Cursor.ask, reply, call, nextLine_withOld h]
    | startCycle =>
      have hmarked : c.startCycle.HasMarked := ha rfl
      rw [withOld_of_hasMarked (ha rfl), Cursor.ask, call, withOld_of_hasMarked hmarked]
    | rewind => rfl
    | exec source => rfl
  | depth => rfl
  | isFinished => rfl

/-- All the questions. -/
theorem answers_withOld (h : c.Traced library head) (old : Position) {asks : List Ask}
    (hasks : c.ReturnsMarked asks) :
    (c.withOld old).answers asks = c.answers asks ∧
      (c.withOld old).asked asks = (c.asked asks).withOld old := by
  induction asks generalizing c with
  | nil => exact ⟨rfl, rfl⟩
  | cons a rest ih =>
    obtain ⟨ha, hrest⟩ := hasks
    obtain ⟨hanswers, hasked⟩ := ih (h.ask a) hrest
    refine ⟨?_, ?_⟩
    · rw [answers, ask_withOld h old ha, hanswers]
      rfl
    · rw [asked, List.foldl_cons, ask_withOld h old ha]
      exact hasked

/-- The first cycle that is started without a mark leads to the mark that was put in. -/
theorem answers_withOld_startCycle (h : c.Traced library head) (old : Position) {first : List Ask}
    (hfirst : c.ReturnsMarked first) (hmark : ¬ (c.asked first).HasMarked) (rest : List Ask) :
    (c.withOld old).answers (first ++ .call .startCycle :: rest) =
      c.answers first ++
        .done :: ((c.asked first).markedAt old).startCycle.answers rest := by
  obtain ⟨hanswers, hasked⟩ := answers_withOld h old hfirst
  rw [answers_append, hanswers, hasked, withOld_of_not_hasMarked hmark]
  rfl

theorem Traced.asked (h : c.Traced library head) (asks : List Ask) :
    (c.asked asks).Traced library head := by
  induction asks generalizing c with
  | nil => exact h
  | cons a rest ih => exact ih (h.ask a)

/-- **Going back gives a new cursor, but for the mark.** After any calls on a run of any track, a
cursor that goes back to the start answers whatever is asked of it as a new cursor with its
parameters does, if it has no mark, or if the new cursor has marked something whenever a cycle is
started. The first cycle that is started before that leads where a cycle would have led that was
started instead of going back, with the parameters of the moment. -/
theorem answers_rewind (library : Library) (owner : Owner) (t : Track) (params : Params)
    (calls : List Call) :
    let c := (ofTrack library owner t params).after calls
    let fresh := ofTrack library owner t c.params
    (∀ asks, (c.HasMarked → fresh.ReturnsMarked asks) →
      c.rewind.answers asks = fresh.answers asks) ∧
    ∀ first rest, fresh.ReturnsMarked first → ¬ (fresh.asked first).HasMarked →
      c.rewind.answers (first ++ .call .startCycle :: rest) =
        fresh.answers first ++
          .done :: { c.startCycle with params := (fresh.asked first).params }.answers rest := by
  intro c fresh
  have hc : c.Traced library (t.headOf owner) := (traced_ofTrack ..).after calls
  have hfresh : fresh.Traced library (t.headOf owner) := traced_ofTrack ..
  have hrewind : c.rewind = fresh.withOld c.body := hc.rewind_eq_withOld
  refine ⟨fun asks hasks => ?_, fun first rest hfirst hmark => ?_⟩
  · rw [hrewind]
    by_cases hmarked : c.HasMarked
    · exact (answers_withOld hfresh c.body (hasks hmarked)).1
    · have hbody : c.body = .atHead fresh.head :=
        (Decidable.not_not.1 hmarked).trans (by rw [hc.head, hfresh.head])
      rw [hbody, withOld_atHead]
  · have hasked := hfresh.asked first
    rw [hrewind, answers_withOld_startCycle hfresh c.body hfirst hmark]
    simp only [startCycle, markedAt, hasked.library, hasked.head, hc.library, hc.head]

/-- A macro with a row that is played before its cycle. -/
def tune : Library := .load [⟨"b.m".toList, "<a>\nINIT\nbody:\nX\n".toList⟩]

/-- Its track. -/
def tuneTrack : Track := ⟨["INIT".toList, "body:".toList, "X".toList]⟩

/-- A run of it that has come to its end. -/
def tunePlayed : Cursor := (ofTrack tune .root tuneTrack ⟨∅⟩).after [.nextLine, .nextLine]

/-- Back at the start the run plays up to its end, starts a cycle and plays on as a new one does.
When it starts a cycle behind `INIT` instead, this leads behind the row `body:`. -/
theorem answers_rewind_tune :
    tune.track? "b.a".toList = some tuneTrack ∧
      tunePlayed.rewind.answers
          [.call .nextLine, .call .nextLine, .call .startCycle, .call .nextLine, .isFinished] =
        (ofTrack tune .root tuneTrack tunePlayed.params).answers
          [.call .nextLine, .call .nextLine, .call .startCycle, .call .nextLine, .isFinished] ∧
      tunePlayed.rewind.answers [.call .nextLine, .call .startCycle, .call .nextLine] =
        [.line (some "INIT".toList), .done, .line (some ['X'])] := by
  obtain ⟨halike, hback⟩ := answers_rewind tune .root tuneTrack ⟨∅⟩ [.nextLine, .nextLine]
  refine ⟨by decide +kernel, halike _ fun _ => by decide +kernel, ?_⟩
  have hunmarked := hback [.call .nextLine] [.call .nextLine] (by decide +kernel)
    (by decide +kernel)
  exact hunmarked.trans (by decide +kernel)

/-- **A mark outlives going back.** When a cycle is started at once, a run that has gone back goes
on behind the row `body:` that it came to before, and a new one starts at its first row. -/
theorem exists_rewind_ne :
    tune.track? "b.a".toList = some tuneTrack ∧
      ∃ asks, tunePlayed.rewind.answers asks = [.done, .line (some ['X'])] ∧
        (ofTrack tune .root tuneTrack tunePlayed.params).answers asks =
          [.done, .line (some "INIT".toList)] :=
  ⟨by decide +kernel, [.call .startCycle, .call .nextLine], by decide +kernel, by decide +kernel⟩

end Cursor

end PadScript
