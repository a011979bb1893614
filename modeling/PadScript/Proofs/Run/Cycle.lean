import PadScript.Proofs.Run.Pace

/-!
# Cycles that come to a send

A run ends after a cycle that has given no line, so that it does not go round and round without
doing anything. A line is not always a send, though: where the pad can keep what is held, the
elements `~` of a chain send nothing, and a chain of nothing else does not let go at its end either.

* `Action.Plays.over_iff` : playing a line has come to a send exactly if `Chain.Sends` says so.
* `Execution.Trace.sent_iff` : **when a cycle that is followed by another one has come to a send**:
  always on the profile `horipadS`, and on `proController` if one of its lines does more than hold.
* `Execution.idle_cycle` : a cycle of the line `~` is followed by another one and has sent nothing.
-/

namespace PadScript

/-- The element is not sent: it keeps what is held, and the pad can. -/
def ChainElement.isSilent (keepsHeld : Bool) (s : ChainElement) : Bool :=
  keepsHeld && s.line = holdLine

namespace Chain

/-- One of the elements is sent. -/
def IsLoud (keepsHeld : Bool) (chain : List ChainElement) : Prop :=
  ∃ s ∈ chain, s.isSilent keepsHeld = false

/-- Playing the line comes to a send: of one of its elements, or of the end of a chain without
elements. -/
def Sends (keepsHeld : Bool) (line : Text) : Prop :=
  ofLine line = [] ∨ IsLoud keepsHeld (ofLine line)

variable {keepsHeld : Bool} {chain : List ChainElement} {s : ChainElement}

theorem isLoud_append_singleton :
    IsLoud keepsHeld (chain ++ [s]) ↔ IsLoud keepsHeld chain ∨ s.isSilent keepsHeld = false := by
  simp [IsLoud, or_and_right, exists_or]

theorem IsLoud.ne_nil (h : IsLoud keepsHeld chain) : chain ≠ [] := by
  obtain ⟨s, hs, -⟩ := h
  exact List.ne_nil_of_mem hs

/-- Where the pad cannot keep what is held, every line comes to a send. -/
theorem sends_false (line : Text) : Sends false line := by
  unfold Sends
  cases ofLine line with
  | nil => exact .inl rfl
  | cons s rest => exact .inr ⟨s, List.mem_cons_self, rfl⟩

end Chain

namespace Action

/-- How far an action has got with a line, and that a send has taken effect. -/
def Plays (keepsHeld : Bool) (line : Text) (sent : Prop) (a : Action) : Prop :=
  ∃ past, past ++ a.steps = Chain.ofLine line ∧
    match a.phase with
    | .choosing => (sent ↔ Chain.IsLoud keepsHeld past) ∧
      (a.held = true → past ≠ []) ∧ (a.held = false → past = [] ∨ sent)
    | .sending _ _ => Chain.IsLoud keepsHeld past
    | .holding _ => a.steps = [] ∧ past ≠ [] ∧ (sent ↔ Chain.IsLoud keepsHeld past)
    | .closing _ => a.steps = [] ∧ (past = [] ∨ Chain.IsLoud keepsHeld past)

variable {keepsHeld : Bool} {line : Text} {sent : Prop} {now : Nat} {isCancelled : Bool}
  {a a' : Action} {p p' : Pad}

theorem plays_ofLine (keepsHeld : Bool) (line : Text) : Plays keepsHeld line False (.ofLine line) :=
  ⟨[], rfl, by simp [Chain.IsLoud], fun hheld => by simp [ofLine] at hheld, fun _ => .inl rfl⟩

/-- The turn to the next element. -/
theorem Plays.choose (h : a.Plays keepsHeld line sent) (hphase : a.phase = .choosing)
    (hkeeps : p.keepsHeld = keepsHeld)
    (hleft : (a.choose now isCancelled p).left? = some (p', a')) :
    a'.Plays keepsHeld line sent := by
  obtain ⟨past, hpast, hplays⟩ := h
  obtain ⟨steps, releaseAt, held, phase⟩ := a
  obtain rfl : phase = .choosing := hphase
  obtain ⟨hsent, hkept, hlet⟩ := hplays
  cases steps with
  | nil =>
    cases held with
    | true =>
      simp only [Action.choose, if_true] at hleft
      cases hwait : Wait.begin now isCancelled releaseAt with
      | «over» => simp [hwait, Turn.left?] at hleft
      | cancelled => simp [hwait, Turn.left?] at hleft
      | sleeping deadline =>
        simp only [hwait, Turn.left?, Option.some.injEq, Prod.mk.injEq] at hleft
        obtain ⟨-, rfl⟩ := hleft
        exact ⟨past, hpast, rfl, hkept rfl, hsent⟩
    | false =>
      simp only [Action.choose, Bool.false_eq_true, if_false, Turn.left?, Option.some.injEq,
        Prod.mk.injEq] at hleft
      obtain ⟨-, rfl⟩ := hleft
      exact ⟨past, hpast, rfl, (hlet rfl).imp_right hsent.1⟩
  | cons s rest =>
    have hpast' : (past ++ [s]) ++ rest = Chain.ofLine line := by
      rw [List.append_assoc]
      exact hpast
    have hsilent : (p.keepsHeld && decide (s.line = ChainElement.holdLine)) =
        s.isSilent keepsHeld := by rw [hkeeps, ChainElement.isSilent]
    simp only [Action.choose, hsilent] at hleft
    cases hs : s.isSilent keepsHeld with
    | true =>
      simp only [hs, if_true, Turn.left?, Option.some.injEq, Prod.mk.injEq] at hleft
      obtain ⟨-, rfl⟩ := hleft
      refine ⟨past ++ [s], hpast', ?_, by simp, by simp⟩
      simp [Chain.isLoud_append_singleton, hs, hsent]
    | false =>
      simp only [hs, Bool.false_eq_true, if_false, Turn.left?, Option.some.injEq,
        Prod.mk.injEq] at hleft
      obtain ⟨-, rfl⟩ := hleft
      exact ⟨past ++ [s], hpast', Chain.isLoud_append_singleton.2 (.inr hs)⟩

/-- A step of an action that goes on. -/
theorem Plays.step (h : a.Plays keepsHeld line sent) (hkeeps : p.keepsHeld = keepsHeld)
    (hleft : (a.step now isCancelled p).left? = some (p', a')) :
    a'.Plays keepsHeld line (sent ∨ a.shows now isCancelled p ≠ none) := by
  obtain ⟨steps, releaseAt, held, phase⟩ := a
  cases phase with
  | choosing =>
    have hchoose := h.choose rfl hkeeps hleft
    simpa [shows, send?] using hchoose
  | sending x hold =>
    obtain ⟨past, hpast, hloud⟩ := h
    rcases Turn.left_within hleft with ⟨x', -, rfl⟩ | ⟨p'', result, hstep, hnext⟩
    · exact ⟨past, hpast, hloud⟩
    · cases result with
      | error e => simp [Turn.left?] at hnext
      | ok t =>
        obtain ⟨rfl, rfl⟩ := Prod.mk.inj (Option.some.inj hnext)
        have hshows : sent ∨ Action.shows now isCancelled
            ⟨steps, releaseAt, held, .sending x hold⟩ p ≠ none :=
          .inr (by simp [shows, send?, Send.shows, hstep])
        exact ⟨past, hpast, iff_of_true hshows hloud, fun _ => hloud.ne_nil,
          fun _ => .inr hshows⟩
  | holding deadline =>
    obtain ⟨past, hpast, hplays⟩ := h
    simp only [Action.step] at hleft
    cases hwait : Wait.look now isCancelled deadline with
    | «over» => simp [hwait, Turn.left?] at hleft
    | cancelled => simp [hwait, Turn.left?] at hleft
    | sleeping _ =>
      simp only [hwait, Turn.left?, Option.some.injEq, Prod.mk.injEq] at hleft
      obtain ⟨-, rfl⟩ := hleft
      exact ⟨past, hpast, by simpa [shows, send?] using hplays⟩
  | closing x =>
    obtain ⟨past, hpast, hplays⟩ := h
    rcases Turn.left_within hleft with ⟨x', -, rfl⟩ | ⟨p'', result, -, hnext⟩
    · exact ⟨past, hpast, hplays⟩
    · simp [Turn.left?] at hnext

/-- **Whether playing a line has come to a send**, when it is over. -/
theorem Plays.over_iff (h : a.Plays keepsHeld line sent)
    (hdone : a.step now isCancelled p = .done p' (.ok ())) :
    (sent ∨ a.shows now isCancelled p ≠ none) ↔ Chain.Sends keepsHeld line := by
  obtain ⟨past, hpast, hplays⟩ := h
  obtain ⟨steps, releaseAt, held, phase⟩ := a
  unfold Chain.Sends
  rw [← hpast]
  cases phase with
  | choosing =>
    obtain ⟨hsent, hkept, -⟩ := hplays
    simp only [Action.step, Action.choose] at hdone
    cases steps with
    | cons s rest =>
      simp only at hdone
      split at hdone <;> simp at hdone
    | nil =>
      cases held with
      | false => simp at hdone
      | true => simp [shows, send?, hsent, hkept rfl]
  | sending x hold =>
    obtain ⟨p'', result, -, hnext⟩ := Turn.done_within hdone
    cases result <;> simp at hnext
  | holding deadline =>
    obtain ⟨hsteps, hpast', hsent⟩ := hplays
    simp only at hsteps
    simp [shows, send?, hsent, hsteps, hpast']
  | closing x =>
    obtain ⟨hsteps, hloud⟩ := hplays
    simp only at hsteps
    obtain ⟨p'', result, hstep, hnext⟩ := Turn.done_within hdone
    cases result with
    | error e => simp [finish] at hnext
    | ok t =>
      have hshows : Action.shows now isCancelled ⟨steps, releaseAt, held, .closing x⟩ p ≠ none := by
        simp [shows, send?, Send.shows, hstep]
      rw [hsteps, List.append_nil]
      exact iff_of_true (.inr hshows) hloud

end Action

namespace Execution

/-- The events of the cycle in progress. -/
def thisCycle (events : List Event) : List Event :=
  events.foldl (fun cycle event => if event = .again then [] else cycle ++ [event]) []

/-- A send has taken effect. -/
def HasSent (events : List Event) : Prop := ∃ line time, .sent line time ∈ events

/-- A line was taken that comes to a send. -/
def HasSending (keepsHeld : Bool) (events : List Event) : Prop :=
  ∃ line, .line line ∈ events ∧ Chain.Sends keepsHeld line

/-- What a run has shown in a cycle that may go on, and how far it has got with its line. -/
def Follows (keepsHeld : Bool) (cycle : List Event) (e : Execution) : Prop :=
  match e.phase with
  | .choosing => (HasSent cycle ↔ HasSending keepsHeld cycle) ∧
      (e.produced = true → ∃ line, .line line ∈ cycle)
  | .acting a => (∃ line, .line line ∈ cycle) ∧ ∃ line before sent,
      a.Plays keepsHeld line sent ∧ (HasSent cycle ↔ before ∨ sent) ∧
        (HasSending keepsHeld cycle ↔ before ∨ Chain.Sends keepsHeld line)
  | .releasing _ _ => True

variable {keepsHeld : Bool} {events cycle : List Event} {e e' : Execution} {s s' : Station}

@[simp] theorem thisCycle_append (events : List Event) (event : Event) :
    thisCycle (events ++ [event]) =
      if event = .again then [] else thisCycle events ++ [event] := by
  simp [thisCycle]

/-- What an action shows is a send. -/
theorem hasSent_append_shows {a : Action} {now : Nat} {isCancelled : Bool} {p : Pad} :
    HasSent (cycle ++ (a.shows now isCancelled p).toList) ↔
      HasSent cycle ∨ a.shows now isCancelled p ≠ none := by
  cases hshows : a.shows now isCancelled p with
  | none => simp
  | some event =>
    obtain ⟨x, p', -, rfl, -, -⟩ := Action.shows_eq_some hshows
    refine iff_of_true ⟨x.line, now, by simp⟩ (.inr (by simp))

theorem thisCycle_append_shows {a : Action} {now : Nat} {isCancelled : Bool} {p : Pad} :
    thisCycle (events ++ (a.shows now isCancelled p).toList) =
      thisCycle events ++ (a.shows now isCancelled p).toList := by
  cases hshows : a.shows now isCancelled p with
  | none => simp
  | some event =>
    obtain ⟨x, p', -, rfl, -, -⟩ := Action.shows_eq_some hshows
    simp

theorem hasSending_append_shows {a : Action} {now : Nat} {isCancelled : Bool} {p : Pad} :
    HasSending keepsHeld (cycle ++ (a.shows now isCancelled p).toList) ↔
      HasSending keepsHeld cycle := by
  cases hshows : a.shows now isCancelled p with
  | none => simp
  | some event =>
    obtain ⟨x, p', -, rfl, -, -⟩ := Action.shows_eq_some hshows
    simp [HasSending]

theorem hasSent_append_line {line : Text} : HasSent (cycle ++ [.line line]) ↔ HasSent cycle := by
  simp [HasSent]

theorem hasSending_append_line {line : Text} :
    HasSending keepsHeld (cycle ++ [.line line]) ↔
      HasSending keepsHeld cycle ∨ Chain.Sends keepsHeld line := by
  simp [HasSending, or_and_right, exists_or]

/-- A step of the action that is played. -/
theorem Follows.of_acting {a : Action} {e : Execution}
    (h : Follows keepsHeld (thisCycle events) e) (hphase : e.phase = .acting a)
    (now : Nat) (isCancelled : Bool) (p : Pad) :
    (∃ line, .line line ∈ thisCycle (events ++ (a.shows now isCancelled p).toList)) ∧
      ∃ line before sent, a.Plays keepsHeld line sent ∧
        (HasSent (thisCycle (events ++ (a.shows now isCancelled p).toList)) ↔
          before ∨ (sent ∨ a.shows now isCancelled p ≠ none)) ∧
        (HasSending keepsHeld (thisCycle (events ++ (a.shows now isCancelled p).toList)) ↔
          before ∨ Chain.Sends keepsHeld line) := by
  unfold Follows at h
  rw [hphase] at h
  obtain ⟨⟨first, hfirst⟩, line, before, sent, hplays, hsent, hsending⟩ := h
  rw [thisCycle_append_shows]
  refine ⟨⟨first, List.mem_append_left _ hfirst⟩, line, before, sent, hplays, ?_, ?_⟩
  · rw [hasSent_append_shows, hsent, or_assoc]
  · rw [hasSending_append_shows, hsending]

/-- A step of a run. -/
theorem Follows.step (h : Follows keepsHeld (thisCycle events) e)
    (hkeeps : s.pad.keepsHeld = keepsHeld) (hleft : (e.step s).left? = some (s', e')) :
    Follows keepsHeld (thisCycle (events ++ (e.shows s).toList)) e' := by
  have hadvance := advance_of_left hleft
  generalize e.shows s = shown at hadvance
  cases hadvance with
  | cancel _ _ => trivial
  | @line line cursor hphase _ _ =>
    unfold Follows at h
    rw [hphase] at h
    simp only [Option.toList_some, thisCycle_append, reduceCtorEq, if_false]
    refine ⟨⟨line, by simp⟩, line, HasSent (thisCycle events), False,
      Action.plays_ofLine keepsHeld line, ?_, ?_⟩
    · rw [hasSent_append_line, or_false]
    · rw [hasSending_append_line, h.1]
  | finish _ _ _ _ => trivial
  | again hphase _ _ _ _ =>
    simp only [Option.toList_some, thisCycle_append, if_true]
    unfold Follows
    rw [hphase]
    exact ⟨by simp [HasSent, HasSending], by simp⟩
  | @act a a' p hphase hgone =>
    obtain ⟨hline, line, before, sent, hplays, hsent, hsending⟩ :=
      h.of_acting hphase s.now s.queue.cancelled s.pad
    exact ⟨hline, line, before, _, hplays.step hkeeps hgone, hsent, hsending⟩
  | @played a p hphase hdone =>
    obtain ⟨hline, line, before, sent, hplays, hsent, hsending⟩ :=
      h.of_acting hphase s.now s.queue.cancelled s.pad
    refine ⟨?_, fun _ => hline⟩
    rw [hsent, hsending, hplays.over_iff hdone]
  | fail _ _ => trivial
  | release _ _ => trivial

/-- A cycle that is followed by another one is over. -/
theorem Follows.of_again (h : Follows keepsHeld cycle e) (hshows : e.shows s = some .again) :
    (∃ line, .line line ∈ cycle) ∧ (HasSent cycle ↔ HasSending keepsHeld cycle) := by
  obtain ⟨hphase, hproduced⟩ := produced_of_again hshows
  unfold Follows at h
  rw [hphase] at h
  exact ⟨h.2 hproduced, h.1⟩

/-- What a run has shown in its cycles. -/
structure Cyclic (keepsHeld : Bool) (events : List Event) (e : Execution) (s : Station) :
    Prop where
  /-- The pad is the same. -/
  keepsHeld_eq : s.pad.keepsHeld = keepsHeld
  /-- In this cycle. -/
  current : Follows keepsHeld (thisCycle events) e
  /-- In those before. -/
  earlier : ∀ past, past ++ [.again] <+: events → (∃ line, .line line ∈ thisCycle past) ∧
    (HasSent (thisCycle past) ↔ HasSending keepsHeld (thisCycle past))

theorem keepsHeld_of_profile {p p' : Pad} (h : p'.profile = p.profile) :
    p'.keepsHeld = p.keepsHeld := by
  rw [Pad.keepsHeld, Pad.keepsHeld, h]

theorem Cyclic.step (h : Cyclic keepsHeld events e s)
    (hleft : (e.step s).left? = some (s', e')) :
    Cyclic keepsHeld (events ++ (e.shows s).toList) e' s' where
  keepsHeld_eq := (keepsHeld_of_profile (profile_of_left hleft)).trans h.keepsHeld_eq
  current := h.current.step h.keepsHeld_eq hleft
  earlier past hpast := by
    cases hshows : e.shows s with
    | none =>
      rw [hshows, Option.toList_none, List.append_nil] at hpast
      exact h.earlier past hpast
    | some event =>
      rw [hshows, Option.toList_some] at hpast
      rcases List.prefix_concat_iff.1 (by simpa using hpast) with heq | hprefix
      · obtain ⟨rfl, hevent⟩ := List.append_inj' heq rfl
        obtain rfl := List.singleton_inj.1 hevent
        exact h.current.of_again hshows
      · exact h.earlier past hprefix

/-- What the cycles of a run come to. -/
theorem Trace.cyclic {e₀ : Execution} {s₀ : Station} (h : Trace Station.Passes e₀ s₀ events e s)
    (hphase : e₀.phase = .choosing) (hproduced : e₀.produced = false) :
    Cyclic s₀.pad.keepsHeld events e s := by
  induction h with
  | start =>
    refine ⟨rfl, ?_, by simp⟩
    unfold Follows
    rw [hphase, hproduced]
    exact ⟨by simp [HasSent, HasSending, thisCycle], by simp⟩
  | step _ hleft ih => exact ih.step hleft
  | others _ hpasses ih =>
    exact ⟨(keepsHeld_of_profile hpasses.profile).trans ih.keepsHeld_eq, ih.current, ih.earlier⟩

/-- **When a cycle that is followed by another one has come to a send**: always on the profile
`horipadS`, and on `proController` if one of the lines that the cycle has given does more than hold.
The sends of a run are an interval apart, so a cycle that comes to a send takes its time. -/
theorem Trace.sent_iff {setup : Setup} {r : PlayRequest} {s₀ s₁ : Station} {e₀ : Execution}
    {past rest : List Event} (hstart : start? setup r s₀ = some (e₀, s₁))
    (h : Trace Station.Passes e₀ s₁ (past ++ .again :: rest) e s) :
    (∃ line, .line line ∈ thisCycle past) ∧
      ((∃ line time, .sent line time ∈ thisCycle past) ↔
        s₀.pad.profile = .horipadS ∨
          ∃ line, .line line ∈ thisCycle past ∧ Chain.Sends true line) ∧
      (sentTimes (past ++ .again :: rest)).Pairwise
        fun t u => t + s₀.pad.pacer.interval ≤ u := by
  obtain ⟨cursor, -, hbegun⟩ := Option.map_eq_some_iff.1 hstart
  obtain ⟨rfl, rfl⟩ := Prod.mk.inj hbegun
  have hprefix : past ++ [.again] <+: past ++ .again :: rest := ⟨rest, by simp⟩
  obtain ⟨hline, hsent⟩ := (h.cyclic rfl rfl).earlier past hprefix
  refine ⟨hline, hsent.trans ?_, h.paced.spaced⟩
  cases hprofile : s₀.pad.profile with
  | horipadS =>
    have hkeeps : s₀.pad.keepsHeld = false := by simp [Pad.keepsHeld, hprofile]
    obtain ⟨line, hline⟩ := hline
    refine iff_of_true ⟨line, hline, ?_⟩ (.inl rfl)
    rw [hkeeps]
    exact Chain.sends_false line
  | proController =>
    have hkeeps : s₀.pad.keepsHeld = true := by simp [Pad.keepsHeld, hprofile]
    simp [HasSending, hkeeps]

/-! ### Two runs without end -/

/-- Two macros for a pad that can keep what is held, one of which does nothing else. -/
def holding : Setup where
  library :=
    [("t.hold", "~"), ("t.press", "A")].foldl
      (fun l (name, line) => l.add (.named name.toList ⟨⟨[line.toList]⟩, ∅⟩)) .empty
  config := { Config.standard with profile := .proController }

/-- The run of a macro of one line. -/
def ofLine (line : Text) : Execution where
  loopCount := 0
  cursor := .ofTrack holding.library .root ⟨[line]⟩ (.ofOverrides ∅ ∅)
  cycles := 0
  produced := false
  phase := .choosing

/-- The station in which it begins. -/
def begun : Station := { holding.station .prompt 0 with queue := ⟨[], false, true⟩ }

/-- A run that is alone. -/
theorem trace_alone (line : Text) (n : Nat) :
    Trace Station.Passes (ofLine line) begun (alone n (ofLine line) begun).1
      (alone n (ofLine line) begun).2.1 (alone n (ofLine line) begun).2.2 :=
  Trace.start.of_alone (fun _ _ hlater => ⟨rfl, rfl, hlater, .inl rfl⟩) n

theorem alone_hold : (alone 4 (ofLine ['~']) begun).1 = [.line ['~'], .again] := by
  decide +kernel

theorem alone_press :
    (alone 7 (ofLine ['A']) begun).1 =
      [.line ['A'], .sent ['A'] 0, .sent [] 100000, .again] := by
  decide +kernel

/-- **A cycle can be followed by another one without any send**: it gives the line `~`, which keeps
what is held. -/
theorem idle_cycle :
    start? holding ⟨"t.hold".toList, 0, ∅⟩ (holding.station .prompt 0) =
        some (ofLine ['~'], begun) ∧
      begun.pad.pacer.interval = 3000 ∧
      ∃ e s, Trace Station.Passes (ofLine ['~']) begun [.line ['~'], .again] e s ∧
        ¬ ∃ line time, .sent line time ∈ thisCycle [.line ['~']] := by
  have htrace := trace_alone ['~'] 4
  rw [alone_hold] at htrace
  exact ⟨rfl, rfl, _, _, htrace, by simp [thisCycle]⟩

/-- The first cycle of the line `A`. -/
theorem sent_iff_press :
    start? holding ⟨"t.press".toList, 0, ∅⟩ (holding.station .prompt 0) =
        some (ofLine ['A'], begun) ∧
      ∃ e s, Trace Station.Passes (ofLine ['A']) begun
          [.line ['A'], .sent ['A'] 0, .sent [] 100000, .again] e s ∧
        ((∃ line time, .sent line time ∈ thisCycle
            [.line ['A'], .sent ['A'] 0, .sent [] 100000]) ↔
          holding.config.profile = .horipadS ∨ ∃ line, .line line ∈ thisCycle
            [.line ['A'], .sent ['A'] 0, .sent [] 100000] ∧ Chain.Sends true line) := by
  have hstart : start? holding ⟨"t.press".toList, 0, ∅⟩ (holding.station .prompt 0) =
      some (ofLine ['A'], begun) := rfl
  have hpressed := trace_alone ['A'] 7
  rw [alone_press] at hpressed
  have htrace : Trace Station.Passes (ofLine ['A']) begun
      ([.line ['A'], .sent ['A'] 0, .sent [] 100000] ++ .again :: [])
      (alone 7 (ofLine ['A']) begun).2.1 (alone 7 (ofLine ['A']) begun).2.2 := hpressed
  exact ⟨hstart, _, _, hpressed, (htrace.sent_iff hstart).2.1⟩

end Execution

end PadScript
