import PadScript.Proofs.Run.Completion

/-!
# Macros with a prologue

The row `body:` marks where the next cycle begins, so that the lines before it are a prologue, which
is played once, and those behind it a body, which is played in every cycle. If nothing stands behind
the row it marks nothing, though, and then the prologue is played in every cycle.

* `Execution.recital_of_gives` : the recital of a run, cycle by cycle.
* `Execution.plays_prologue` : **what a macro with a prologue plays.**
* `Execution.replays_prologue` : a macro without a body replays its prologue.
-/

namespace PadScript

/-! ### The lines of a cycle -/

namespace Execution

variable {c d : Cursor} {lines : List Text}

/-- **The recital, cycle by cycle.** -/
theorem recital_of_gives (h : c.Gives lines d) (n : Nat) (produced : Bool) :
    recital n produced c =
      if 1 < n ∧ (produced = true ∨ lines ≠ []) then
        (lines ++ (recital (n - 1) false d.startCycle).1,
          (recital (n - 1) false d.startCycle).2 + 1)
      else (lines, 1) := by
  induction h generalizing produced with
  | finished hnone =>
    by_cases hn : 1 < n
    · cases produced with
      | true => simp [recital_of_again hnone hn, hn]
      | false => simp [recital_of_end hnone (.inr rfl)]
    · simp [recital_of_end hnone (.inl (Nat.le_of_not_lt hn)), hn]
  | line hline _ ih =>
    rw [recital_of_line hline, ih]
    by_cases hn : 1 < n <;> simp [hn]

/-- A run whose every cycle gives the same lines. -/
theorem recital_of_repeats (h : c.Gives lines d) (hrepeats : d.startCycle = c) (hne : lines ≠ [])
    (n : Nat) :
    recital (n + 1) false c = ((List.replicate (n + 1) lines).flatten, n + 1) := by
  induction n with
  | zero => simp [recital_of_gives h]
  | succ n ih =>
    rw [recital_of_gives h, if_pos ⟨by omega, .inr hne⟩, hrepeats, Nat.add_sub_cancel, ih]
    simp [List.replicate_succ]

end Execution

/-! ### The rows of one track -/

namespace Cursor

variable {library : Library} {t : Track} {params : Params} {body i : Nat} {line : Text}
  {lines : List Text} {d : Cursor}

/-- A cursor in a track that is played once, at the start or behind a row that marks a start. -/
def inTrack (library : Library) (t : Track) (params : Params) (body i : Nat) : Cursor where
  library := library
  head := t.headOf .root
  params := params
  position := .atHead ⟨.root, t, i⟩
  body := .atHead ⟨.root, t, body⟩

/-- The position behind a row of a track that is played once. -/
theorem advance_atHead {p : Place} : (Position.atHead p).advance = .atHead p.next := by
  simp only [Position.advance, Position.atHead, Position.leave]
  split
  · rfl
  · simp

theorem next_of_lt (h : i < t.length) :
    Place.next ⟨.root, t, i⟩ = ⟨.root, t, i + 1⟩ := by
  simp only [Place.next, Place.mk.injEq, true_and]
  omega

theorem gives_end (h : t.length ≤ i) :
    (inTrack library t params body i).Gives [] (inTrack library t params body i) := by
  have hnone : (inTrack library t params body i).position.current.action? = none :=
    Place.action?_eq_none_iff.2 (decide_eq_true h)
  exact .finished (nextLine_of_finished (step_of_none hnone))

/-- A row that is played. -/
theorem gives_line (hline : t.lines[i]? = some line) (hplain : Directive.ofLine line = .action line)
    (h : (inTrack library t params body (i + 1)).Gives lines d) :
    (inTrack library t params body i).Gives (line :: lines) d := by
  have hlt : i < t.length := (List.getElem?_eq_some_iff.1 hline).1
  have hstep := step_of_action (c := inTrack library t params body i) hline hplain
  refine .line (nextLine_of_emit hstep) ?_
  have hnext : (inTrack library t params body i).position.advance =
      .atHead ⟨.root, t, i + 1⟩ := by
    rw [← next_of_lt hlt]
    exact advance_atHead
  rw [hnext]
  exact h

/-- A stretch of rows that are played. -/
theorem gives_stretch {stretch rest : List Text} (hstretch : t.lines.drop i = stretch ++ rest)
    (hplain : ∀ line ∈ stretch, Directive.ofLine line = .action line)
    (h : (inTrack library t params body (i + stretch.length)).Gives lines d) :
    (inTrack library t params body i).Gives (stretch ++ lines) d := by
  induction stretch generalizing i with
  | nil => exact h
  | cons line stretch ih =>
    have hline : t.lines[i]? = some line := by
      rw [← List.head?_drop, hstretch]
      rfl
    have hrest : t.lines.drop (i + 1) = stretch ++ rest := by
      rw [← List.tail_drop, hstretch]
      rfl
    refine gives_line hline (hplain line List.mem_cons_self) (ih hrest (fun l hl => ?_) ?_)
    · exact hplain l (List.mem_cons_of_mem _ hl)
    · rw [List.length_cons] at h
      rwa [Nat.add_assoc, Nat.add_comm 1]

end Cursor

/-! ### A prologue and a body -/

/-- The track of a prologue and a body. -/
def Track.withPrologue (pre post : List Text) : Track := ⟨pre ++ Directive.bodyWord :: post⟩

/-- The lines of a prologue and of so many cycles of a body. Without a body the prologue takes its
place. -/
def Track.performance (pre post : List Text) (n : Nat) : List Text :=
  if post = [] then (List.replicate n pre).flatten else pre ++ (List.replicate n post).flatten

namespace Cursor

variable {library : Library} {params : Params} {pre post : List Text}

theorem length_withPrologue : (Track.withPrologue pre post).length = pre.length + 1 + post.length := by
  simp only [Track.length, Track.withPrologue, List.length_append, List.length_cons]
  omega

/-- Behind the row `body:` the lines of the body are given. -/
theorem gives_body (library : Library) (params : Params) (pre : List Text)
    (hpost : ∀ line ∈ post, Directive.ofLine line = .action line) (body : Nat) :
    (inTrack library (.withPrologue pre post) params body (pre.length + 1)).Gives post
      (inTrack library (.withPrologue pre post) params body
        (Track.withPrologue pre post).length) := by
  have hdrop : (Track.withPrologue pre post).lines.drop (pre.length + 1) = post ++ [] := by
    simp [Track.withPrologue]
  have hend : (inTrack library (.withPrologue pre post) params body
      (Track.withPrologue pre post).length).Gives [] _ := gives_end (Nat.le_refl _)
  rw [length_withPrologue] at hend ⊢
  simpa using gives_stretch hdrop hpost hend

/-- The row `body:` marks the row behind it, if there is one. -/
theorem step_inTrack_body :
    (inTrack library (.withPrologue pre post) params 0 pre.length).step =
      (.silent, inTrack library (.withPrologue pre post) params
        (if post = [] then 0 else pre.length + 1) (pre.length + 1)) := by
  have hrow : (inTrack library (.withPrologue pre post) params 0 pre.length).position.current.action?
      = some Directive.bodyWord := by
    simp [inTrack, Position.atHead, Place.action?, Track.withPrologue]
  rw [step_of_body hrow rfl]
  have hlt : pre.length < (Track.withPrologue pre post).length := by
    rw [length_withPrologue]
    omega
  have hnext : (inTrack library (.withPrologue pre post) params 0 pre.length).position.advance =
      .atHead ⟨.root, .withPrologue pre post, pre.length + 1⟩ := by
    rw [← next_of_lt hlt]
    exact advance_atHead
  simp only [markBody, hnext]
  cases post with
  | nil => simp [Place.isFinished, Position.atHead, length_withPrologue, inTrack]
  | cons line rest => simp [Place.isFinished, Position.atHead, length_withPrologue, inTrack]

/-- From its head on, such a track gives the prologue and the body. -/
theorem gives_withPrologue (library : Library) (params : Params)
    (hplain : ∀ line ∈ pre ++ post, Directive.ofLine line = .action line) :
    (inTrack library (.withPrologue pre post) params 0 0).Gives (pre ++ post)
      (inTrack library (.withPrologue pre post) params (if post = [] then 0 else pre.length + 1)
        (Track.withPrologue pre post).length) := by
  have hdrop : (Track.withPrologue pre post).lines.drop 0 =
      pre ++ Directive.bodyWord :: post := rfl
  refine gives_stretch hdrop (fun line hline => hplain line (List.mem_append_left _ hline)) ?_
  rw [Nat.zero_add]
  refine Gives.of_silent (gives_body library params pre (fun line hline => ?_) _) step_inTrack_body
  exact hplain line (List.mem_append_right _ hline)

end Cursor

namespace Execution

variable {library : Library} {params : Params} {pre post : List Text}

/-- **What a run of a macro with a prologue recites.** -/
theorem recital_withPrologue
    (hplain : ∀ line ∈ pre ++ post, Directive.ofLine line = .action line) (n : Nat) :
    recital (n + 1) false (.ofTrack library .root (.withPrologue pre post) params) =
      (Track.performance pre post (n + 1), if pre = [] ∧ post = [] then 1 else n + 1) := by
  change recital (n + 1) false (Cursor.inTrack library (.withPrologue pre post) params 0 0) = _
  have hgives := Cursor.gives_withPrologue library params hplain
  by_cases hpost : post = []
  · subst hpost
    simp only [if_true, List.append_nil] at hgives
    have hrepeats : (Cursor.inTrack library (.withPrologue pre []) params 0
        (Track.withPrologue pre []).length).startCycle =
      Cursor.inTrack library (.withPrologue pre []) params 0 0 := rfl
    by_cases hpre : pre = []
    · subst hpre
      simp [recital_of_gives hgives, Track.performance]
    · rw [recital_of_repeats hgives hrepeats hpre]
      simp [Track.performance, hpre]
  · rw [if_neg hpost] at hgives
    have hbody : ∀ line ∈ post, Directive.ofLine line = .action line :=
      fun line hline => hplain line (List.mem_append_right _ hline)
    have hcycle := Cursor.gives_body library params pre hbody (pre.length + 1)
    have hstart : (Cursor.inTrack library (.withPrologue pre post) params (pre.length + 1)
        (Track.withPrologue pre post).length).startCycle =
      Cursor.inTrack library (.withPrologue pre post) params (pre.length + 1) (pre.length + 1) :=
      rfl
    rw [recital_of_gives hgives]
    cases n with
    | zero => simp [Track.performance, hpost]
    | succ n =>
      rw [if_pos ⟨by omega, .inr (by simp [hpost])⟩, Nat.add_sub_cancel, hstart,
        recital_of_repeats hcycle hstart hpost n]
      simp [Track.performance, hpost, List.replicate_succ]

/-- **What a macro with a prologue plays.** The prologue is played once and the body in every cycle;
without a body the prologue is played in every cycle. A run that is alone comes to its end if nobody
holds the sink, and whatever the company of a run does in a calm station, the run plays these lines
in order and ends with the last of them. -/
theorem plays_prologue {setup : Setup} {r : PlayRequest} {script : Script} {s : Station}
    (hget : setup.library.get? r.name = some script)
    (htrack : script.track.lines = pre ++ Directive.bodyWord :: post)
    (hplain : ∀ line ∈ pre ++ post, Directive.ofLine line = .action line)
    (hpos : 1 ≤ r.loopCount) (hcount : r.loopCount < UInt32.size) (hcalm : s.Calm) :
    ∃ e₀ s₀, start? setup r s = some (e₀, s₀) ∧
      (s.pad.sinkHeld = false → ∃ n s', (alone n e₀ s₀).2.1.step (alone n e₀ s₀).2.2 =
          .done s' (.completed (if pre = [] ∧ post = [] then 1 else r.loopCount.toNat)) ∧
        played (alone n e₀ s₀).1 = Track.performance pre post r.loopCount.toNat) ∧
      ∀ events e s', Trace Station.KeepsCalm e₀ s₀ events e s' →
        played events <+: Track.performance pre post r.loopCount.toNat ∧
        ∀ s'' outcome, e.step s' = .done s'' outcome →
          outcome = .completed (if pre = [] ∧ post = [] then 1 else r.loopCount.toNat) ∧
          played events = Track.performance pre post r.loopCount.toNat := by
  have hcursor : Cursor.start? setup.library r.name r.overrides =
      some (.ofTrack setup.library .root (.withPrologue pre post)
        (.ofOverrides script.defaults r.overrides)) := by
    rw [Cursor.start?, hget, Option.map_some, Track.withPrologue, ← htrack]
  have hrecital : recital r.loopCount.toNat false
      (.ofTrack setup.library .root (.withPrologue pre post)
        (.ofOverrides script.defaults r.overrides)) =
      (Track.performance pre post r.loopCount.toNat,
        if pre = [] ∧ post = [] then 1 else r.loopCount.toNat) := by
    obtain ⟨n, hn⟩ : ∃ n, r.loopCount.toNat = n + 1 := ⟨r.loopCount.toNat - 1, by omega⟩
    rw [hn]
    exact recital_withPrologue hplain n
  exact plays_recital hcursor hpos hcount hcalm hrecital

/-- Two macros with a prologue, one of them without a body. -/
def opening : Setup where
  library :=
    [("t.whole", ["A", "body:", "B"]), ("t.bare", ["A", "body:"])].foldl
      (fun l (name, lines) => l.add (.named name.toList ⟨⟨lines.map String.toList⟩, ∅⟩)) .empty
  config := { Config.standard with profile := .horipadS }

/-- Two cycles of the macro with a body. -/
def whole : PlayRequest := ⟨"t.whole".toList, 2, ∅⟩

/-- Two cycles of the macro without one. -/
def bare : PlayRequest := ⟨"t.bare".toList, 2, ∅⟩

theorem calm_opening : (opening.station .prompt 0).Calm := ⟨rfl, fun _ => List.not_mem_nil⟩

/-- A prologue and two cycles of a body. -/
theorem plays_prologue_whole :
    ∃ e₀ s₀, start? opening whole (opening.station .prompt 0) = some (e₀, s₀) ∧
      ∃ n s', (alone n e₀ s₀).2.1.step (alone n e₀ s₀).2.2 = .done s' (.completed 2) ∧
        played (alone n e₀ s₀).1 = [['A'], ['B'], ['B']] := by
  have hget : opening.library.get? whole.name =
      some ⟨⟨[['A']] ++ Directive.bodyWord :: [['B']]⟩, ∅⟩ := rfl
  have hplain : ∀ line ∈ [['A']] ++ [['B']], Directive.ofLine line = .action line := by decide
  obtain ⟨e₀, s₀, hstart, hover, -⟩ :=
    plays_prologue hget rfl hplain (by decide) (by decide) calm_opening
  exact ⟨e₀, s₀, hstart, hover rfl⟩

/-- **A macro without a body replays its prologue**: two cycles of it play the prologue twice, and
not once. -/
theorem replays_prologue :
    ∃ e₀ s₀, start? opening bare (opening.station .prompt 0) = some (e₀, s₀) ∧
      ∃ n s', (alone n e₀ s₀).2.1.step (alone n e₀ s₀).2.2 = .done s' (.completed 2) ∧
        played (alone n e₀ s₀).1 = [['A'], ['A']] ∧
        played (alone n e₀ s₀).1 ≠ [['A']] ++ (List.replicate 2 []).flatten := by
  have hcursor : Cursor.start? opening.library bare.name bare.overrides =
      some (.ofTrack opening.library .root (.withPrologue [['A']] []) (.ofOverrides ∅ ∅)) := rfl
  have hplain : ∀ line ∈ [['A']] ++ [], Directive.ofLine line = .action line := by decide
  obtain ⟨e₀, s₀, hstart, hends, -⟩ := plays_recital hcursor (by decide) (by decide) calm_opening
    (recital_withPrologue hplain 1)
  obtain ⟨n, s', hover, hplayed⟩ := hends rfl
  refine ⟨e₀, s₀, hstart, n, s', hover, hplayed, ?_⟩
  rw [hplayed]
  decide

end Execution

end PadScript
