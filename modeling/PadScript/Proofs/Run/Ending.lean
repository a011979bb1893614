import PadScript.Proofs.Cursor.Replay
import PadScript.Proofs.Run.Deeds

/-!
# How a run ends

A run ends when its cycles are done, when a cycle has given no line, when it is cancelled, between
two lines or while it plays one, or when a send fails. On every one of these ways it lets everything
go, once and at last, and what it reports is true: how many cycles the cursor has drained, and why
it has ended. The cycles are numbered by the cursor alone: `Cursor.cycleLines k` are the lines that
the cursor gives in the cycle `k` if all cycles are played out.

* `Cursor.Within` : a cursor in the middle of a cycle.
* `Execution.Chronicle.step` : what a run has done fits its state, step by step.
* `Execution.ends_truthfully` : **how a run ends**, whatever its company does.
-/

namespace PadScript

namespace Cursor

variable {c d d' : Cursor} {k : Nat} {past : List Text} {line : Text}

theorem exists_gives (c : Cursor) : ∃ lines d, c.Gives lines d := by
  induction hp : c.potential using Nat.strongRecOn generalizing c with
  | ind p ih =>
    subst hp
    cases hline : c.nextLine with
    | mk line? d =>
      cases line? with
      | none => exact ⟨[], d, .finished hline⟩
      | some line =>
        obtain ⟨lines, e, hgives⟩ := ih d.potential (potential_lt_of_nextLine hline) d rfl
        exact ⟨line :: lines, e, .line hline hgives⟩

/-- The cursor `d` is in the cycle `k` of `c` and has given the lines `past` of it. -/
def Within (c : Cursor) (k : Nat) (past : List Text) (d : Cursor) : Prop :=
  ∃ rest last, d.Gives rest last ∧ (c.cycleStart k).Gives (past ++ rest) last

/-- A cycle begins. -/
theorem within_cycleStart (c : Cursor) (k : Nat) : c.Within k [] (c.cycleStart k) := by
  obtain ⟨lines, last, hgives⟩ := exists_gives (c.cycleStart k)
  exact ⟨lines, last, hgives, hgives⟩

/-- One more line of a cycle. -/
theorem Within.gives (h : c.Within k past d) (hline : d.nextLine = (some line, d')) :
    c.Within k (past ++ [line]) d' := by
  obtain ⟨rest, last, hgives, hcycle⟩ := h
  cases hgives with
  | finished hnone => cases hline.symm.trans hnone
  | line hline' hgives' =>
    cases hline.symm.trans hline'
    exact ⟨_, last, hgives', by simpa using hcycle⟩

/-- A cycle ends: its lines have been given, and the next one can begin. -/
theorem Within.drained (h : c.Within k past d) (hnone : d.nextLine = (none, d')) :
    c.cycleLines k = past ∧ d'.startCycle = c.cycleStart (k + 1) := by
  obtain ⟨rest, last, hgives, hcycle⟩ := h
  cases hgives with
  | line hline' => cases hnone.symm.trans hline'
  | finished hnone' =>
    cases hnone.symm.trans hnone'
    rw [List.append_nil] at hcycle
    exact ⟨by rw [cycleLines, hcycle.playOut_eq], by rw [cycleStart, hcycle.playOut_eq]⟩

theorem Within.begins (h : c.Within k past d) : past <+: c.cycleLines k := by
  obtain ⟨rest, last, -, hcycle⟩ := h
  rw [cycleLines, hcycle.playOut_eq]
  exact List.prefix_append past rest

/-- The lines of the first `k` cycles. -/
def firstCycles (c : Cursor) (k : Nat) : List Text := (List.range k).flatMap c.cycleLines

theorem firstCycles_succ (c : Cursor) (k : Nat) :
    c.firstCycles (k + 1) = c.firstCycles k ++ c.cycleLines k := by
  simp [firstCycles, List.range_succ]

end Cursor

namespace Execution

/-! ### What has been done -/

/-- The lines that have been played. -/
def linesOf (deeds : List Deed) : List Text := deeds.filterMap Deed.line?

/-- The errors of the sends of actions. -/
def errorsOf (deeds : List Deed) : List OutputError := deeds.filterMap Deed.error?

/-- How many cycles the cursor has drained. -/
def drains (deeds : List Deed) : Nat := deeds.count .drained

section Concat

variable (deeds : List Deed) (d : Deed)

@[simp] theorem drains_concat :
    drains (deeds ++ [d]) = drains deeds + if d = .drained then 1 else 0 := by
  simp [drains, List.count_singleton]

@[simp] theorem linesOf_concat : linesOf (deeds ++ [d]) = linesOf deeds ++ d.line?.toList := by
  simp only [linesOf, List.filterMap_append]
  cases d <;> rfl

@[simp] theorem errorsOf_concat : errorsOf (deeds ++ [d]) = errorsOf deeds ++ d.error?.toList := by
  simp only [errorsOf, List.filterMap_append]
  cases d <;> rfl

end Concat

/-- A run of `n` cycles over the cycles of `c` is under way: it is in the cycle that is not drained
yet and has given some lines of it. -/
structure UnderWay (c : Cursor) (n : Int) (deeds : List Deed) (cycles : Nat) (cursor : Cursor)
    (produced : Bool) : Prop where
  /-- It has not let go. -/
  not_released : .release ∉ deeds
  /-- No send has failed. -/
  no_errors : errorsOf deeds = []
  /-- There are cycles to play. -/
  not_over : ¬ (0 < n ∧ n ≤ cycles)
  /-- The drained cycles were played in full, and of this one the lines so far. -/
  exists_past : ∃ past, linesOf deeds = c.firstCycles (drains deeds) ++ past ∧
    c.Within (drains deeds) past cursor ∧ (produced = true ↔ past ≠ [])

/-- The drained cycles were played in full, and of the next one some lines. -/
def CutShort (c : Cursor) (deeds : List Deed) : Prop :=
  ∃ past, linesOf deeds = c.firstCycles (drains deeds) ++ past ∧
    past <+: c.cycleLines (drains deeds)

/-- Why a run of `n` cycles lets go that counts so many. -/
def Reason (c : Cursor) (n : Int) (cycles : Nat) (deeds : List Deed) :
    Except RunError Unit → Prop
  | .ok () => errorsOf deeds = [] ∧ linesOf deeds = c.firstCycles (drains deeds) ∧
      (0 < n ∧ cycles = n ∨ (n ≤ 0 ∨ cycles < n) ∧ ∃ k, drains deeds = k + 1 ∧ c.cycleLines k = [])
  | .error error => CutShort c deeds ∧ (error = .cancelled ∧ errorsOf deeds = [] ∨
      ∃ err, error = .output err ∧ errorsOf deeds = [err])

/-- What a run of `n` cycles has done fits its state: the number of cycles, where the cursor is, and
whether everything has been let go. -/
structure Chronicle (c : Cursor) (n : Int) (deeds : List Deed) (e : Execution) : Prop where
  /-- So many cycles are asked for. -/
  loopCount_eq : e.loopCount = n
  /-- The cycles are counted, up to the largest number. -/
  cycles_eq : e.cycles = min (drains deeds) mostCycles
  /-- It is under way, or it has let go once and at last. -/
  stage : match e.phase with
    | .choosing | .acting _ => UnderWay c n deeds e.cycles e.cursor e.produced
    | .releasing _ result => ∃ before, deeds = before ++ [.release] ∧ .release ∉ before ∧
        Reason c n e.cycles before result

variable {c cursor : Cursor} {n : Int} {deeds : List Deed} {cycles : Nat} {produced : Bool}
  {e e' : Execution} {s s' : Station}

theorem UnderWay.cutShort (h : UnderWay c n deeds cycles cursor produced) : CutShort c deeds := by
  obtain ⟨past, hlines, hwithin, -⟩ := h.exists_past
  exact ⟨past, hlines, hwithin.begins⟩

/-- One more line. -/
theorem UnderWay.gives {line : Text} {cursor' : Cursor}
    (h : UnderWay c n deeds cycles cursor produced)
    (hline : cursor.nextLine = (some line, cursor')) :
    UnderWay c n (deeds ++ [.play line]) cycles cursor' true := by
  obtain ⟨past, hlines, hwithin, -⟩ := h.exists_past
  refine ⟨by simpa using h.not_released, by simpa [Deed.error?] using h.no_errors, h.not_over,
    past ++ [line], ?_, ?_, by simp⟩
  · simp [hlines, Deed.line?]
  · simpa using hwithin.gives hline

/-- A cycle is drained. -/
theorem UnderWay.drained {cursor' : Cursor} (h : UnderWay c n deeds cycles cursor produced)
    (hnone : cursor.nextLine = (none, cursor')) :
    .release ∉ deeds ++ [.drained] ∧ linesOf deeds = c.firstCycles (drains deeds + 1) ∧
      cursor'.startCycle = c.cycleStart (drains deeds + 1) ∧
      (produced = true ↔ c.cycleLines (drains deeds) ≠ []) := by
  obtain ⟨past, hlines, hwithin, hproduced⟩ := h.exists_past
  obtain ⟨rfl, hstart⟩ := hwithin.drained hnone
  exact ⟨by simpa using h.not_released, by rw [Cursor.firstCycles_succ, hlines], hstart, hproduced⟩

/-- The count of the cycles when one more is drained. -/
theorem Chronicle.counted_eq (h : Chronicle c n deeds e) :
    e.counted = min (drains deeds + 1) mostCycles := by
  rw [counted, h.cycles_eq]
  omega

/-- A run lets go. -/
theorem Chronicle.release {result : Except RunError Unit} (hloop : e.loopCount = n)
    (hcycles : e.cycles = min (drains deeds) mostCycles) (hnot : .release ∉ deeds)
    (hreason : Reason c n e.cycles deeds result) :
    Chronicle c n (deeds ++ [.release]) (e.release result) where
  loopCount_eq := hloop
  cycles_eq := by
    change e.cycles = _
    simpa using hcycles
  stage := ⟨deeds, rfl, hnot, hreason⟩

/-- A run that lets go at the end of a cycle has played the cycles asked for, or the cycle has given
no line. -/
theorem Chronicle.finished {cursor' : Cursor} (h : Chronicle c n deeds e)
    (hunder : UnderWay c n deeds e.cycles e.cursor e.produced)
    (hnone : e.cursor.nextLine = (none, cursor')) (hend : e.IsLast ∨ e.produced = false) :
    Reason c n e.counted (deeds ++ [.drained]) (.ok ()) := by
  obtain ⟨-, hlines, -, hproduced⟩ := hunder.drained hnone
  refine ⟨by simpa [Deed.error?] using hunder.no_errors, by simpa [Deed.line?] using hlines, ?_⟩
  have hnotOver := hunder.not_over
  have hcounted := h.counted_eq
  have hcycles := h.cycles_eq
  by_cases hlast : e.IsLast
  · obtain ⟨hpos, hle⟩ := hlast
    rw [h.loopCount_eq] at hpos hle
    exact .inl ⟨hpos, by omega⟩
  · have hdry : e.produced = false := hend.resolve_left hlast
    have hmore : n ≤ 0 ∨ e.counted < n := by
      unfold IsLast at hlast
      rw [h.loopCount_eq] at hlast
      omega
    have hnothing : c.cycleLines (drains deeds) = [] := by
      simpa [hdry] using hproduced
    exact .inr ⟨hmore, drains deeds, by simp, hnothing⟩

/-- **A step of a run.** -/
theorem Chronicle.step (h : Chronicle c n deeds e) (hleft : (e.step s).left? = some (s', e')) :
    Chronicle c n (deeds ++ e.deeds s e') e' := by
  have hloop := h.loopCount_eq
  have hcycles := h.cycles_eq
  have hcounted := h.counted_eq
  have hstage := h.stage
  have hadvance := advance_of_left hleft
  generalize e.shows s = shown at hadvance
  cases hadvance with
  | cancel hphase hcancelled =>
    simp only [hphase] at hstage
    rw [deeds_cancel hphase hcancelled]
    exact .release hloop hcycles hstage.not_released
      ⟨hstage.cutShort, .inl ⟨rfl, hstage.no_errors⟩⟩
  | line hphase hcancelled hline =>
    simp only [hphase] at hstage
    rw [deeds_line hphase hcancelled hline rfl]
    exact ⟨hloop, by simpa using hcycles, hstage.gives hline⟩
  | finish hphase hcancelled hline hend =>
    simp only [hphase] at hstage
    have hreason := h.finished hstage hline hend
    rw [deeds_finish hphase hcancelled hline, List.append_cons]
    exact .release hloop (by simpa using hcounted) (hstage.drained hline).1 hreason
  | again hphase hcancelled hline hlast hproduced =>
    simp only [hphase] at hstage
    obtain ⟨hnot, hlines, hstart, -⟩ := hstage.drained hline
    rw [deeds_again hphase hcancelled hline (by exact hphase)]
    refine ⟨hloop, by simpa using hcounted, ?_⟩
    simp only [hphase]
    refine ⟨hnot, by simpa [Deed.error?] using hstage.no_errors, ?_, [], ?_, ?_, by simp⟩
    · unfold IsLast at hlast
      rwa [hloop] at hlast
    · simpa [Deed.line?] using hlines
    · simpa [hstart] using c.within_cycleStart (drains deeds + 1)
  | act hphase hgone =>
    simp only [hphase] at hstage
    rw [deeds_gone hphase hgone rfl, List.append_nil]
    exact ⟨hloop, hcycles, hstage⟩
  | played hphase hdone =>
    simp only [hphase] at hstage
    rw [deeds_played hphase hdone rfl, List.append_nil]
    exact ⟨hloop, hcycles, hstage⟩
  | fail hphase hdone =>
    simp only [hphase] at hstage
    rcases deeds_fail hphase hdone with ⟨rfl, hdeeds⟩ | ⟨err, rfl, hdeeds⟩
    · rw [hdeeds]
      exact .release hloop hcycles hstage.not_released
        ⟨hstage.cutShort, .inl ⟨rfl, hstage.no_errors⟩⟩
    · have hcut : CutShort c (deeds ++ [.refused err]) := by
        simpa [CutShort, Deed.line?] using hstage.cutShort
      rw [hdeeds, List.append_cons]
      exact .release hloop (by simpa using hcycles) (by simpa using hstage.not_released)
        ⟨hcut, .inr ⟨err, rfl, by simp [hstage.no_errors, Deed.error?]⟩⟩
  | release hphase hgone =>
    simp only [hphase] at hstage
    rw [deeds_release hphase, List.append_nil]
    exact ⟨hloop, hcycles, hstage⟩

/-- The beginning of a run. -/
theorem chronicle_start (c : Cursor) (n : Int) : Chronicle c n [] ⟨n, c, 0, false, .choosing⟩ where
  loopCount_eq := rfl
  cycles_eq := rfl
  stage := ⟨by simp, rfl, by simp, [], rfl, c.within_cycleStart 0, by simp⟩

variable {e₀ : Execution} {s₀ : Station}

theorem History.chronicle (h : History e₀ s₀ deeds e s) (hstart : Chronicle c n [] e₀) :
    Chronicle c n deeds e := by
  induction h with
  | start => exact hstart
  | step _ hleft ih => exact ih.step hleft
  | others _ _ ih => exact ih

/-- A run says that it is in progress until it is over. -/
theorem History.running_eq (h : History e₀ s₀ deeds e s) (hstart : s₀.queue.running = true) :
    s.queue.running = true := by
  induction h with
  | start => exact hstart
  | @step past e e' s s' _ hleft ih =>
    have hqueue := e.step_queue s
    rcases Turn.eq_of_left hleft with ⟨again, hstep⟩ | hstep
    · rw [hstep] at hqueue
      rw [hqueue]
      exact ih
    · rw [hstep] at hqueue
      rw [hqueue]
      exact ih
  | others _ hkeeps ih => exact hkeeps.trans ih

/-- The lines played are the first lines of the cycles. -/
theorem Chronicle.begins (h : Chronicle c n deeds e) :
    linesOf deeds <+: c.firstCycles (drains deeds + 1) := by
  have hcut (deeds : List Deed) (hcut : CutShort c deeds) :
      linesOf deeds <+: c.firstCycles (drains deeds + 1) := by
    obtain ⟨past, hlines, hpast⟩ := hcut
    rw [hlines, Cursor.firstCycles_succ]
    exact (List.prefix_append_right_inj _).2 hpast
  have hstage := h.stage
  split at hstage
  · exact hcut deeds hstage.cutShort
  · exact hcut deeds hstage.cutShort
  next result _ =>
    obtain ⟨before, rfl, -, hreason⟩ := hstage
    have hbefore : linesOf before <+: c.firstCycles (drains before + 1) := by
      cases result with
      | error error => exact hcut before hreason.1
      | ok _ =>
        rw [hreason.2.1, Cursor.firstCycles_succ]
        exact List.prefix_append _ _
    simpa [Deed.line?] using hbefore

/-- What a run of `n` cycles reports is what it has done. -/
def Truthful (c : Cursor) (n : Int) (deeds : List Deed) : RunOutcome → Prop
  | .completed cycles => drains deeds = cycles ∧ linesOf deeds = c.firstCycles cycles ∧
      errorsOf deeds = [] ∧
      (0 < n ∧ cycles = n ∨ (n ≤ 0 ∨ cycles < n) ∧ ∃ k, cycles = k + 1 ∧ c.cycleLines k = [])
  | .cancelled cycles => drains deeds = cycles ∧ CutShort c deeds ∧ errorsOf deeds = []
  | .failed error => CutShort c deeds ∧ ∃ err, error = .output err ∧ errorsOf deeds = [err]

/-- That it lets go adds nothing to why it does. -/
theorem reason_concat_release {before : List Deed} {result : Except RunError Unit} :
    Reason c n cycles (before ++ [.release]) result ↔ Reason c n cycles before result := by
  cases result <;> simp [Reason, CutShort, Deed.line?, Deed.error?]

theorem Chronicle.truthful {outcome : RunOutcome} (h : Chronicle c n deeds e)
    (hstep : e.step s = .done s' outcome) :
    (∃ before, deeds = before ++ [.release] ∧ .release ∉ before) ∧
      (drains deeds < UInt32.size → Truthful c n deeds outcome) := by
  obtain ⟨x, result, hphase, rfl⟩ := step_eq_done hstep
  have hcycles := h.cycles_eq
  have hstage := h.stage
  simp only [hphase] at hstage
  obtain ⟨before, hdeeds, hnot, hreason⟩ := hstage
  refine ⟨⟨before, hdeeds, hnot⟩, fun hcount => ?_⟩
  have hexact : drains deeds = e.cycles := by
    rw [hcycles, mostCycles]
    omega
  rw [← reason_concat_release, ← hdeeds] at hreason
  cases result with
  | ok _ =>
    obtain ⟨herrors, hlines, hwhy⟩ := hreason
    rw [hexact] at hlines hwhy
    exact ⟨hexact, hlines, herrors, hwhy⟩
  | error error =>
    obtain ⟨hcut, ⟨rfl, herrors⟩ | ⟨err, rfl, herrors⟩⟩ := hreason
    · exact ⟨hexact, hcut, herrors⟩
    · exact ⟨hcut, err, rfl, herrors⟩

/-- **How a run ends.** Whatever its company does to the station, except that it leaves the flag
alone that a run is in progress: the flag is set from the beginning until the run is over; the lines
played are the first lines of the cycles of the cursor. When the run is over, the flag is cleared,
and the run has let everything go, once and after all its lines. If its cycles can be counted, what
it reports is what it has done. -/
theorem ends_truthfully {setup : Setup} {r : PlayRequest} {s : Station}
    (hcursor : Cursor.start? setup.library r.name r.overrides = some c) :
    ∃ e₀ s₀, start? setup r s = some (e₀, s₀) ∧
      ∀ deeds e s, History e₀ s₀ deeds e s →
        s.queue.running = true ∧ linesOf deeds <+: c.firstCycles (drains deeds + 1) ∧
        ∀ s' outcome, e.step s = .done s' outcome →
          s'.queue.running = false ∧
          (∃ before, deeds = before ++ [.release] ∧ .release ∉ before) ∧
          (drains deeds < UInt32.size → Truthful c r.loopCount deeds outcome) := by
  refine ⟨_, _, start?_of_cursor hcursor s, fun deeds e s' hhistory => ?_⟩
  have hchronicle := hhistory.chronicle (chronicle_start c r.loopCount)
  refine ⟨hhistory.running_eq rfl, hchronicle.begins, fun s'' outcome hstep => ⟨?_, ?_⟩⟩
  · have hqueue := e.step_queue s'
    rw [hstep] at hqueue
    rw [hqueue]
  · exact hchronicle.truthful hstep

/-! ### A run that fails -/

/-- What a run does in some steps while it is alone. -/
def aloneDeeds : (n : Nat) → Execution → Station → List Deed
  | 0, _, _ => []
  | n + 1, e, s =>
    match (e.step (e.rested s)).left? with
    | some (s', e') => e.deeds (e.rested s) e' ++ aloneDeeds n e' s'
    | none => []

theorem History.of_alone (n : Nat) (h : History e₀ s₀ deeds e s) :
    History e₀ s₀ (deeds ++ aloneDeeds n e s) (alone n e s).2.1 (alone n e s).2.2 := by
  induction n generalizing e s deeds with
  | zero => simpa [aloneDeeds, alone] using h
  | succ n ih =>
    have hrested : History e₀ s₀ deeds e (e.rested s) := h.others rfl
    cases hleft : (e.step (e.rested s)).left? with
    | some next =>
      obtain ⟨s', e'⟩ := next
      simp only [alone, aloneDeeds, hleft]
      rw [← List.append_assoc]
      exact ih (hrested.step hleft)
    | none => simpa [alone, aloneDeeds, hleft] using hrested

/-- What a run comes to in its next step, if it ends with it. -/
def ended? (e : Execution) (s : Station) : Option RunOutcome :=
  match e.step s with
  | .done _ outcome => some outcome
  | _ => none

theorem exists_done_of_ended {outcome : RunOutcome} (h : e.ended? s = some outcome) :
    ∃ s', e.step s = .done s' outcome := by
  unfold ended? at h
  split at h
  next s' outcome' hstep =>
    obtain rfl := Option.some.inj h
    exact ⟨s', hstep⟩
  next => cases h

/-- A macro of one line. -/
def pressing : Setup where
  library := Library.empty.add (.named "t.press".toList ⟨⟨[['A']]⟩, ∅⟩)
  config := { Config.standard with profile := .horipadS }

/-- Three cycles of the macro. -/
def thrice : PlayRequest := ⟨"t.press".toList, 3, ∅⟩

/-- A station that refuses the third report. -/
def failing : Station :=
  let s := pressing.station .prompt 0
  let sink := { s.pad.sink with outcomes := [.taken, .taken, .refused .io] }
  { s with pad := { s.pad with sink := sink } }

/-- The run at its beginning, and its station. -/
def pressingThrice : Execution × Station :=
  (⟨3, .ofTrack pressing.library .root ⟨[['A']]⟩ (.ofOverrides ∅ ∅), 0, false, .choosing⟩,
    { failing with queue := ⟨[], false, true⟩ })

/-- A run that fails in its second cycle. -/
theorem ends_truthfully_failing :
    start? pressing thrice failing = some pressingThrice ∧
      ∃ e s s', History pressingThrice.1 pressingThrice.2
          [.play ['A'], .drained, .play ['A'], .refused .io, .release] e s ∧
        e.step s = .done s' (.failed (.output .io)) ∧ s'.queue.running = false ∧
        Truthful (.ofTrack pressing.library .root ⟨[['A']]⟩ (.ofOverrides ∅ ∅)) 3
          [.play ['A'], .drained, .play ['A'], .refused .io, .release]
          (.failed (.output .io)) := by
  have hcursor : Cursor.start? pressing.library thrice.name thrice.overrides =
      some (.ofTrack pressing.library .root ⟨[['A']]⟩ (.ofOverrides ∅ ∅)) := rfl
  have hstart : start? pressing thrice failing = some pressingThrice := rfl
  have hdeeds : aloneDeeds 15 pressingThrice.1 pressingThrice.2 =
      [.play ['A'], .drained, .play ['A'], .refused .io, .release] := by decide +kernel
  have hended : (alone 15 pressingThrice.1 pressingThrice.2).2.1.ended?
      (alone 15 pressingThrice.1 pressingThrice.2).2.2 = some (.failed (.output .io)) := by
    decide +kernel
  have hhistory : History pressingThrice.1 pressingThrice.2 _ _ _ := .of_alone 15 .start
  obtain ⟨s', hstep⟩ := exists_done_of_ended hended
  obtain ⟨e₀, s₀, hstart', hends⟩ := ends_truthfully hcursor (s := failing)
  cases hstart.symm.trans hstart'
  obtain ⟨-, -, hover⟩ := hends _ _ _ hhistory
  obtain ⟨hrunning, -, htruthful⟩ := hover s' _ hstep
  rw [List.nil_append, hdeeds] at hhistory htruthful
  exact ⟨hstart, _, _, s', hhistory, hstep, hrunning, htruthful (by decide)⟩

end Execution

end PadScript
