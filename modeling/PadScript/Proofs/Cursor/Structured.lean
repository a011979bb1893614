import PadScript.Proofs.Cursor.Course

/-!
# A cursor plays what its script means

A cursor walks with a stack of frames and a counter outside of it; `interpret` recurses. This file
shows that they come to the same. `Cursor.outlook` reads the stack as a course: the rest of the
current track, the repetitions that its counter leaves, and then, frame by frame, what lies below.

* `Position.ahead_leave` : leaving finished tracks, looping back or returning, changes nothing.
* `Position.ahead_jump` : a jump comes to the rounds that its suffix directs, and then to what lies
  behind it.
* `Cursor.outlook_step` : a step takes from the outlook what it gives, and nothing else.
* `Cursor.drain_eq_interpret` : **a new cursor gives exactly the lines, and leaves exactly the
  parameters, of the interpretation of its track**, for every library, also one whose macros enter
  each other.
-/

namespace PadScript

namespace Position

variable (library : Library)

/-- The course of a level: the rest of the track, and the track as often as it is to be played
again. -/
def level (opened : List Text) (current : Place) (n : Nat) : Course :=
  (interpret library opened (current.track.lines.drop current.index)).andThen
    (.repeated (n - 1) (interpret library opened current.track.lines))

/-- The course of the levels below. -/
def below : List Frame → Course
  | [] => .skip
  | f :: rest =>
    (level library (rest.map (·.entered)) f.returnTo f.loopRemaining).andThen (below rest)

/-- The course of all levels. -/
def ahead (p : Position) : Course :=
  (level library (p.frames.map (·.entered)) p.current p.loopRemaining).andThen
    (below library p.frames)

variable {library} {opened : List Text} {current : Place}

theorem level_of_isFinished (h : current.isFinished = true) (n : Nat) :
    level library opened current n =
      .repeated (n - 1) (interpret library opened current.track.lines) := by
  have hdrop : current.track.lines.drop current.index = [] := by
    rw [List.drop_eq_nil_iff]
    exact of_decide_eq_true h
  rw [level, hdrop, interpret_nil, Course.skip_andThen]

/-- A finished track that is to be played again is a track at its start. -/
theorem level_again (h : current.isFinished = true) {n : Nat} (hn : 1 < n) :
    level library opened current n = level library opened current.head (n - 1) := by
  obtain ⟨k, rfl⟩ : ∃ k, n = k + 2 := ⟨n - 2, by omega⟩
  rw [level_of_isFinished h]
  simp [level, Place.head, Course.repeated]

/-- Leaving finished tracks loses nothing. -/
theorem ahead_leave (current : Place) (n : Nat) (frames : List Frame) :
    (leave current n frames).ahead library = ahead library ⟨current, n, frames⟩ := by
  induction frames generalizing current n with
  | nil =>
    unfold leave
    split
    · rfl
    next hfin =>
      split
      next hn =>
        simp only [Bool.not_eq_true, Bool.not_eq_false'] at hfin
        simp only [ahead]
        rw [level_again hfin hn]
      next => rfl
  | cons f rest ih =>
    unfold leave
    split
    · rfl
    next hfin =>
      simp only [Bool.not_eq_true, Bool.not_eq_false'] at hfin
      split
      next hn =>
        simp only [ahead]
        rw [level_again hfin hn]
      next hn =>
        -- the level is over for good: its course is nothing, and what lies below is all there is
        obtain hk : n - 1 = 0 := by omega
        rw [ih]
        simp only [ahead, below]
        rw [level_of_isFinished hfin, hk, Course.repeated, Course.skip_andThen]

/-- The course of a row and what lies behind it. -/
theorem ahead_of_interpret {p : Position} {line : Text} (hline : p.current.action? = some line)
    (row : Course)
    (h : ∀ rest, interpret library (p.frames.map (·.entered)) (line :: rest) =
      row.andThen (interpret library (p.frames.map (·.entered)) rest)) :
    p.ahead library = row.andThen (p.advance.ahead library) := by
  obtain ⟨hlt, hget⟩ := List.getElem?_eq_some_iff.1 hline
  have hdrop : p.current.track.lines.drop p.current.index =
      line :: p.current.next.track.lines.drop p.current.next.index := by
    have hnext : p.current.next.index = p.current.index + 1 := Nat.min_eq_left hlt
    rw [List.drop_eq_getElem_cons hlt, hget, hnext]
    rfl
  rw [advance, ahead_leave]
  simp only [ahead, level]
  rw [hdrop, h]
  simp only [Course.andThen_assoc, Place.next]

/-- Entering a track puts its rounds before what lies behind the jump. -/
theorem ahead_enter (p : Position) (label : Text) (t : Track) {n : Nat} (hn : 0 < n) :
    (p.enter label t n).ahead library =
      (Course.repeated n
        (interpret library (label :: p.frames.map (·.entered)) t.lines)).andThen
        (p.advance.ahead library) := by
  obtain ⟨k, rfl⟩ : ∃ k, n = k + 1 := ⟨n - 1, by omega⟩
  rw [advance, ahead_leave]
  simp only [ahead, enter, below, level, List.map_cons, Track.headOf, List.drop_zero,
    Nat.add_sub_cancel, Course.repeated, Course.andThen_assoc]

theorem enterable?_eq (p : Position) (label : Text) :
    library.enterable? (p.frames.map (·.entered)) label =
      (library.track? label).filter fun t => !t.isEmpty && !p.hasOpen label := by
  have hopen : p.hasOpen label = (p.frames.map (·.entered)).contains label := by
    cases h : p.hasOpen label with
    | false => simpa using hasOpen_eq_false_iff.1 h
    | true => simpa [hasOpen] using h
  rw [Library.enterable?, hopen]

/-- A jump comes to the rounds that its suffix directs, and then to what lies behind it. -/
theorem ahead_jump {p : Position} {line label suffix : Text}
    (hline : p.current.action? = some line) (h : Directive.ofLine line = .jump label suffix)
    (params : Params) :
    (p.jump library label (Directive.times params suffix)).ahead library params =
      p.ahead library params := by
  cases ht : library.enterable? (p.frames.map (·.entered)) label with
  | none =>
    have hpass : p.jump library label (Directive.times params suffix) = p.advance := by
      rw [enterable?_eq] at ht
      unfold jump
      split
      next t htrack =>
        rw [htrack] at ht
        simp only [Option.filter_some, ite_eq_right_iff] at ht
        split
        next hc =>
          simp only [Bool.and_eq_true] at hc
          simp [hc.1.1, hc.2] at ht
        next => rfl
      next => rfl
    rw [hpass, ahead_of_interpret hline .skip fun rest => interpret_cons_of_pass rest h ht,
      Course.skip_andThen]
  | some t =>
    obtain ⟨htrack, hne, hclosed⟩ := Library.enterable?_eq_some_iff.1 ht
    have hopen := hasOpen_eq_false_iff.2 hclosed
    rw [ahead_of_interpret hline _ fun rest => interpret_cons_of_enter rest h ht]
    by_cases hone : 1 ≤ Directive.times params suffix
    · have hjump : p.jump library label (Directive.times params suffix) =
          p.enter label t (Directive.rounds suffix params) := by
        simp [jump, htrack, hne, hopen, hone, Directive.rounds]
      have hpos : 0 < Directive.rounds suffix params := by
        have := mostTimes_pos
        simp only [Directive.rounds]
        omega
      rw [hjump, ahead_enter p label t hpos]
      rfl
    · have hjump : p.jump library label (Directive.times params suffix) = p.advance := by
        simp [jump, htrack, hone]
      have hzero : Directive.rounds suffix params = 0 := by
        simp only [Directive.rounds]
        omega
      rw [hjump]
      simp [Course.andThen, Course.repeatedBy, hzero, Course.repeated, Course.skip]

/-- Nothing lies ahead of a sound position that is finished. -/
theorem ahead_of_isFinished {root : Place} {p : Position} (h : p.Sound library root)
    (hfin : p.current.isFinished = true) : p.ahead library = .skip := by
  obtain ⟨hframes, hn⟩ := h.settled hfin
  rw [ahead, level_of_isFinished hfin, hn, hframes]
  simp [below, Course.repeated]

end Position

namespace Cursor

/-- The lines that a cursor is still to give, and the parameters that it will leave. -/
def outlook (c : Cursor) : List Text × Params := c.position.ahead c.library c.params

theorem outlook_ofTrack (library : Library) (owner : Owner) (t : Track) (params : Params) :
    (ofTrack library owner t params).outlook = interpret library [] t.lines params := by
  simp [outlook, ofTrack, Position.atHead, Position.ahead, Position.level, Position.below,
    Track.headOf, Course.repeated]

variable {c : Cursor}

/-- A step takes from what is to come what it gives, and nothing else. -/
theorem outlook_step (h : c.Sound) :
    match c.step with
    | (.finished, d) => c.outlook = ([], c.params) ∧ d = c
    | (.silent, d) => c.outlook = d.outlook
    | (.emit line, d) => c.outlook = (line :: d.outlook.1, d.outlook.2) := by
  cases hline : c.position.current.action? with
  | none =>
    rw [step_of_none hline]
    refine ⟨?_, rfl⟩
    rw [outlook, Position.ahead_of_isFinished h.position (Place.action?_eq_none_iff.1 hline)]
    rfl
  | some line =>
    cases hd : Directive.ofLine line with
    | jump label suffix =>
      rw [step_of_jump hline hd]
      exact (Position.ahead_jump hline hd c.params).symm
    | body =>
      rw [step_of_body hline hd]
      simp only
      rw [outlook, Position.ahead_of_interpret hline .skip
        fun rest => interpret_cons_of_body rest hd, Course.skip_andThen]
      rfl
    | exec source =>
      rw [step_of_exec hline hd]
      simp only
      rw [outlook, Position.ahead_of_interpret hline (.exec source)
        fun rest => interpret_cons_of_exec rest hd]
      simp [outlook, Course.andThen, Course.exec, exec]
    | action given =>
      rw [step_of_action hline hd]
      simp only
      rw [outlook, Position.ahead_of_interpret hline (.give given)
        fun rest => interpret_cons_of_action rest hd]
      simp [outlook, Course.andThen, Course.give]

/-- The next line is the first of the lines to come; there is none exactly if none is to come. -/
theorem outlook_nextLine (h : c.Sound) :
    match c.nextLine with
    | (none, d) => c.outlook = ([], d.params) ∧ d.nextLine = (none, d)
    | (some line, d) => c.outlook = (line :: d.outlook.1, d.outlook.2) := by
  have hout := outlook_step h
  fun_induction nextLine c with
  | case1 c d hstep =>
    rw [hstep] at hout
    obtain ⟨hnothing, rfl⟩ := hout
    exact ⟨hnothing, nextLine_of_finished hstep⟩
  | case2 c d hstep ih =>
    rw [hstep] at hout
    have hd : d.Sound := by simpa [hstep] using sound_step h
    rw [hout]
    exact ih hd (outlook_step hd)
  | case3 c line d hstep =>
    rw [hstep] at hout
    exact hout

/-- Draining a sound cursor gives the lines to come and leaves the parameters to come, as long as it
may take one line more. -/
theorem drain_eq_outlook (h : c.Sound) (extra : Nat) :
    let drained := c.drain (c.outlook.1.length + extra + 1)
    drained.1 = c.outlook.1 ∧ drained.2.params = c.outlook.2 ∧
      drained.2.nextLine = (none, drained.2) := by
  -- by the lines to come, which also say how often a line is taken
  generalize hlines : c.outlook.1 = lines
  induction lines generalizing c with
  | nil =>
    have hnext := outlook_nextLine h
    split at hnext
    next d hd =>
      rw [drain_of_none hd]
      exact ⟨rfl, by rw [hnext.1], hnext.2⟩
    next line d hd => simp [hnext] at hlines
  | cons first rest ih =>
    have hnext := outlook_nextLine h
    split at hnext
    next d hd => simp [hnext.1] at hlines
    next line d hd =>
      have hsound : d.Sound := by simpa [hd] using sound_nextLine h
      simp only [hnext, List.cons.injEq] at hlines
      obtain ⟨rfl, hrest⟩ := hlines
      obtain ⟨hgiven, hparams, hover⟩ := ih hsound hrest
      rw [List.length_cons, Nat.add_right_comm rest.length, drain_of_some hd]
      exact ⟨by rw [hgiven], by rw [hparams, hnext], hover⟩

/-- **A cursor plays what its script means.** Taking lines from a new cursor until there are none
gives exactly the lines of the interpretation of its track, and leaves exactly its parameters; from
then on there is no line any more. -/
theorem drain_eq_interpret (library : Library) (owner : Owner) (t : Track) (params : Params)
    (extra : Nat) :
    let run := interpret library [] t.lines params
    let drained := (ofTrack library owner t params).drain (run.1.length + extra + 1)
    drained.1 = run.1 ∧ drained.2.params = run.2 ∧ drained.2.nextLine = (none, drained.2) := by
  have h := drain_eq_outlook (sound_ofTrack library owner t params) extra
  rwa [outlook_ofTrack] at h

end Cursor

end PadScript
