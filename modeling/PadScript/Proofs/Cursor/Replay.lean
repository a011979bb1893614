import PadScript.Proofs.Cursor.Exhaustion

/-!
# Cycles repeat

Where the next cycle starts is a snapshot of the whole position, with its frames and counters partly
used. This file shows that a cycle that starts there gives what the cycle before gave from there on,
and leaves the snapshot where it is, as long as no row changes the parameters.

* `Cursor.step_keepsParams` : a step either does not look at the snapshot, or takes one of the place
  that it leads to.
* `Cursor.exists_gives_straight` : from the last snapshot of a run on, no row takes another.
* `Cursor.cycleLines_repeat` : **every later cycle gives the lines of the second, and these are the
  last lines of the first.**
-/

namespace PadScript

/-- No row of the library changes the parameters. -/
def Library.KeepsParams (library : Library) : Prop :=
  ∀ label t, library.track? label = some t → ∀ line ∈ t.lines,
    Text.after? Directive.execWord line = none

instance (library : Library) : Decidable library.KeepsParams :=
  decidable_of_iff
    (library.labels.all fun label => (library.track? label).all fun t =>
      t.lines.all fun line => (Text.after? Directive.execWord line).isNone) <| by
    simp only [List.all_eq_true, Option.all_eq_true, Option.isNone_iff_eq_none, Library.KeepsParams]
    exact ⟨fun h label t ht => h label (Library.mem_labels_of_track? ht) t ht,
      fun h label _ t ht => h label t ht⟩

namespace Directive

/-- A row that asks for statements begins with the word before them. -/
theorem after?_execWord_of_ofLine {line source : Text} (h : ofLine line = .exec source) :
    Text.after? execWord line = some source := by
  unfold ofLine at h
  split at h
  · simp at h
  · split at h
    · simp at h
    · split at h
      next hafter => rw [hafter, (Directive.exec.inj h)]
      next => simp at h

end Directive

/-- The track of a level is that of the root or one that a label leads to. -/
theorem Nested.track_eq {library : Library} {root current : Place} {n : Nat} {frames : List Frame}
    (h : Nested library root current n frames) :
    current.track = root.track ∨ ∃ label, library.track? label = some current.track := by
  cases h with
  | root _ htrack _ => exact .inl htrack
  | entered htrack _ _ _ _ _ _ => exact .inr ⟨_, htrack⟩

namespace Cursor

/-- A run whose rows leave the parameters alone. -/
structure KeepsParams (c : Cursor) : Prop where
  /-- The cursor can come about. -/
  sound : c.Sound
  /-- No row of the library changes them. -/
  library : c.library.KeepsParams
  /-- No row of its own track does. -/
  head : ∀ line ∈ c.head.track.lines, Text.after? Directive.execWord line = none

/-- The cursor with another position for the next cycle to start from. -/
def markedAt (c : Cursor) (body : Position) : Cursor := { c with body := body }

/-- The cursors are of one run, and have the same parameters. -/
structure Alike (c d : Cursor) : Prop where
  /-- The labels lead to the same tracks. -/
  library : d.library = c.library
  /-- The run starts at the same place. -/
  head : d.head = c.head
  /-- The parameters are the same. -/
  params : d.params = c.params

variable {c d e : Cursor} {lines : List Text}

theorem Alike.refl (c : Cursor) : c.Alike c := ⟨rfl, rfl, rfl⟩

theorem Alike.trans (h : c.Alike d) (h' : d.Alike e) : c.Alike e :=
  ⟨h'.library.trans h.library, h'.head.trans h.head, h'.params.trans h.params⟩

/-- Starting the next cycle puts a cursor where another one of its run was, if that is what the
snapshot is of. -/
theorem Alike.startCycle_eq (h : c.Alike d) (hbody : d.body = c.position) :
    d.startCycle = c.markedAt d.body := by
  obtain ⟨hlibrary, hhead, hparams⟩ := h
  simp only [startCycle, markedAt, hlibrary, hhead, hparams, hbody]

theorem KeepsParams.not_exec (h : c.KeepsParams) {line source : Text}
    (hline : c.position.current.action? = some line) : Directive.ofLine line ≠ .exec source := by
  intro hd
  have hmem : line ∈ c.position.current.track.lines := List.mem_of_getElem? hline
  have hnone : Text.after? Directive.execWord line = none := by
    rcases h.sound.position.levels.track_eq with hroot | ⟨label, hlabel⟩
    · exact h.head line (hroot ▸ hmem)
    · exact h.library label _ hlabel line hmem
  rw [Directive.after?_execWord_of_ofLine hd] at hnone
  simp at hnone

theorem KeepsParams.of_alike (h : c.KeepsParams) (hd : d.Sound) (halike : c.Alike d) :
    d.KeepsParams :=
  ⟨hd, halike.library ▸ h.library, halike.head ▸ h.head⟩

/-- A step of such a run leaves the parameters alone. It either does not look at the snapshot, or
takes one of the position that it leads to. -/
theorem step_keepsParams (h : c.KeepsParams) {m : Move} (hstep : c.step = (m, d)) :
    c.Alike d ∧
      ((d.body = c.body ∧ ∀ b, (c.markedAt b).step = (m, d.markedAt b)) ∨
        (m = .silent ∧ d.body = d.position)) := by
  cases hline : c.position.current.action? with
  | none =>
    rw [step_of_none hline] at hstep
    obtain ⟨rfl, rfl⟩ := Prod.mk.inj hstep
    exact ⟨.refl c, .inl ⟨rfl, fun b => step_of_none (c := c.markedAt b) hline⟩⟩
  | some line =>
    cases hd : Directive.ofLine line with
    | jump label suffix =>
      rw [step_of_jump hline hd] at hstep
      obtain ⟨rfl, rfl⟩ := Prod.mk.inj hstep
      exact ⟨⟨rfl, rfl, rfl⟩, .inl ⟨rfl, fun b => step_of_jump (c := c.markedAt b) hline hd⟩⟩
    | body =>
      rw [step_of_body hline hd] at hstep
      obtain ⟨rfl, rfl⟩ := Prod.mk.inj hstep
      refine ⟨⟨rfl, rfl, rfl⟩, ?_⟩
      by_cases hend : c.position.advance.current.isFinished
      · -- behind the row there is nothing, so that it marks nothing
        refine .inl ⟨by simp [markBody, hend], fun b => ?_⟩
        rw [step_of_body (c := c.markedAt b) hline hd]
        simp [markBody, markedAt, hend]
      · exact .inr ⟨rfl, by simp [markBody, hend]⟩
    | exec source => exact absurd hd (h.not_exec hline)
    | action given =>
      rw [step_of_action hline hd] at hstep
      obtain ⟨rfl, rfl⟩ := Prod.mk.inj hstep
      exact ⟨⟨rfl, rfl, rfl⟩, .inl ⟨rfl, fun b => step_of_action (c := c.markedAt b) hline hd⟩⟩

/-- The cursor gives these lines, and no row on the way takes a snapshot: whatever the next cycle is
to start from stays. -/
def GivesStraight (c : Cursor) (lines : List Text) (d : Cursor) : Prop :=
  ∀ b, (c.markedAt b).Gives lines (d.markedAt b)

/-- A run to the end either takes no snapshot, or gives its last lines without taking one when it is
started again from the snapshot that it leaves. -/
structure Replayed (c : Cursor) (lines : List Text) (d : Cursor) : Prop where
  /-- The run gives the lines. -/
  gives : c.Gives lines d
  /-- It leaves the parameters alone. -/
  alike : c.Alike d
  /-- What comes from the snapshot on takes no other. -/
  straight : (d.body = c.body ∧ c.GivesStraight lines d) ∨
    ∃ last, last <:+ lines ∧ d.startCycle.GivesStraight last d

/-- A step before a run that is replayed. -/
theorem Replayed.of_step (h : c.KeepsParams) {m : Move} (hstep : c.step = (m, d))
    (hm : m ≠ .finished)
    (hd : d.Replayed lines e) : c.Replayed (m.shown ++ lines) e := by
  obtain ⟨halike, hsnapshot⟩ := step_keepsParams h hstep
  refine ⟨hd.gives.of_step hstep hm, halike.trans hd.alike, ?_⟩
  rcases hd.straight with ⟨hbody, hstraight⟩ | ⟨last, hlast, hstraight⟩
  · rcases hsnapshot with ⟨hkeeps, hsteps⟩ | ⟨-, hmarks⟩
    · exact .inl ⟨hbody.trans hkeeps, fun b => (hstraight b).of_step (hsteps b) hm⟩
    · -- the snapshot that the run leaves is the one that this step takes
      have hstart : e.startCycle = d.markedAt e.body :=
        hd.alike.startCycle_eq (hbody.trans hmarks)
      exact .inr ⟨lines, List.suffix_append .., hstart ▸ hstraight⟩
  · exact .inr ⟨last, hlast.trans (List.suffix_append ..), hstraight⟩

/-- **From its last snapshot on a run takes no other.** -/
theorem exists_replayed (h : c.KeepsParams) : ∃ lines d, c.Replayed lines d := by
  -- every row that is read lowers the potential
  induction hp : c.potential using Nat.strongRecOn generalizing c with
  | ind p ih =>
    obtain ⟨m, d, hstep⟩ : ∃ m d, c.step = (m, d) := ⟨_, _, rfl⟩
    obtain ⟨halike, hsnapshot⟩ := step_keepsParams h hstep
    by_cases hm : m = .finished
    · subst hm
      obtain rfl := eq_of_step_finished hstep
      rcases hsnapshot with ⟨hkeeps, hsteps⟩ | ⟨hm, -⟩
      · have hstraight : d.GivesStraight [] d :=
          fun b => .finished (nextLine_of_finished (hsteps b))
        exact ⟨[], d, .finished (nextLine_of_finished hstep), halike, .inl ⟨hkeeps, hstraight⟩⟩
      · simp at hm
    · have hd : d.KeepsParams := h.of_alike (by simpa [hstep] using sound_step h.sound) halike
      have hlt := potential_lt_of_step hstep hm
      obtain ⟨lines, e, he⟩ := ih _ (hp ▸ hlt) hd rfl
      exact ⟨_, e, he.of_step h hstep hm⟩

/-! ### Cycle after cycle -/

/-- The lines that are given until there are none, and the cursor that is left. -/
def playOut (c : Cursor) : List Text × Cursor := c.drain (c.potential + 1)

/-- The start of the cycle of a number, when every cycle is played out. -/
def cycleStart (c : Cursor) : Nat → Cursor
  | 0 => c
  | k + 1 => (c.cycleStart k).playOut.2.startCycle

/-- The lines of the cycle of a number. -/
def cycleLines (c : Cursor) (k : Nat) : List Text := (c.cycleStart k).playOut.1

theorem Gives.playOut_eq (h : c.Gives lines d) : c.playOut = (lines, d) := by
  obtain ⟨extra, hextra⟩ := Nat.le.dest h.length_le
  rw [playOut, ← hextra]
  exact h.drain_eq extra

/-- A cursor that stands at its snapshot is there again when the next cycle starts, or beyond. -/
theorem exists_replay (h : c.KeepsParams) (hstart : c.position = c.body) :
    ∃ lines last d, last <:+ lines ∧ c.Gives lines d ∧ d.startCycle.Gives last d := by
  obtain ⟨lines, d, hgives, halike, hstraight⟩ := exists_replayed h
  rcases hstraight with ⟨hbody, hstraight⟩ | ⟨last, hlast, hstraight⟩
  · have hagain : d.startCycle = c := by
      rw [halike.startCycle_eq (hbody.trans hstart.symm), hbody]
      rfl
    exact ⟨lines, lines, d, List.suffix_refl _, hgives, hagain ▸ hgives⟩
  · exact ⟨lines, last, d, hlast, hgives, hstraight d.body⟩

/-- Every cycle after the first starts where the second does. -/
theorem cycleStart_succ (hgives : c.Gives lines d) {last : List Text}
    (hagain : d.startCycle.Gives last d) (k : Nat) : c.cycleStart (k + 1) = d.startCycle := by
  induction k with
  | zero => rw [cycleStart, cycleStart, hgives.playOut_eq]
  | succ k ih => rw [cycleStart, ih, hagain.playOut_eq]

theorem keepsParams_start? {library : Library} (h : library.KeepsParams) {name : Text}
    {overrides : Overrides} (hstart : start? library name overrides = some c) :
    c.KeepsParams ∧ c.position = c.body := by
  obtain ⟨script, hget, rfl⟩ := Option.map_eq_some_iff.1 hstart
  have htrack : library.track? name = some script.track := by
    rw [Library.get?] at hget
    rw [Library.track?, hget]
  exact ⟨⟨sound_ofTrack .., h, h name _ htrack⟩, rfl⟩

/-- **Cycles repeat.** If no row of a library changes the parameters, the cycles of a run of any of
its macros, each played out before the next one starts, give the same lines from the second on, and
these are the last lines of the first. -/
theorem cycleLines_repeat {library : Library} (h : library.KeepsParams) {name : Text}
    {overrides : Overrides} (hstart : start? library name overrides = some c) (k : Nat) :
    (c.cycleStart k).Gives (c.cycleLines k) (c.cycleStart k).playOut.2 ∧
      c.cycleLines 1 <:+ c.cycleLines 0 ∧ c.cycleLines (k + 1) = c.cycleLines 1 := by
  obtain ⟨hkeeps, hposition⟩ := keepsParams_start? h hstart
  obtain ⟨lines, last, d, hlast, hgives, hagain⟩ := exists_replay hkeeps hposition
  have hfirst : c.cycleLines 0 = lines := by rw [cycleLines, cycleStart, hgives.playOut_eq]
  have hlater : ∀ k, c.cycleLines (k + 1) = last := by
    intro k
    rw [cycleLines, cycleStart_succ hgives hagain, hagain.playOut_eq]
  refine ⟨?_, ?_, (hlater k).trans (hlater 0).symm⟩
  · cases k with
    | zero =>
      rw [hfirst, cycleStart, hgives.playOut_eq]
      exact hgives
    | succ k =>
      rw [hlater, cycleStart_succ hgives hagain, hagain.playOut_eq]
      exact hagain
  · rw [hfirst, hlater]
    exact hlast

/-- A macro with rows `body:` inside a counted block, inside a condition within it, and in a macro
that it enters and that enters it. -/
def duo : Library :=
  .load [⟨"pads/duo.m".toList,
    ["<main>", "A:10", "[tail]*2", "\x7b", "B:10", "\x7b", "body:", "C:10", "\x7d?1", "\x7d*3",
      "X:10", "<tail>", "Y:10", "body:", "[main]"].flatMap fun row => row.toList ++ ['\n']⟩]

theorem keepsParams_duo : duo.KeepsParams := by decide +kernel

/-- The first cycles of the macro `main` in the file `pads/duo.m`. -/
theorem cycleLines_repeat_duo :
    duo.KeepsParams ∧ ∃ c, start? duo "pads.duo.main".toList ∅ = some c ∧
      (c.cycleStart 2).Gives (c.cycleLines 2) (c.cycleStart 2).playOut.2 ∧
      c.cycleLines 1 <:+ c.cycleLines 0 ∧ c.cycleLines 3 = c.cycleLines 1 := by
  have hsome : (start? duo "pads.duo.main".toList ∅).isSome := by decide +kernel
  obtain ⟨c, hstart⟩ := Option.isSome_iff_exists.1 hsome
  exact ⟨keepsParams_duo, c, hstart, cycleLines_repeat keepsParams_duo hstart 2⟩

end Cursor

end PadScript
