import PadScript.Play.LiveSlot

/-!
# The live line over many calls

A slot is called to begin and to end realtime mode, to set the line, and to read it in two ways: a
poll is told the line if it has changed, a look just sees it. Both let the line decay, and a decay
that one of them finds has to reach a poll.

* `LiveSlot.reflects_run` : what a slot holds follows from the latest calls of each kind.
* `LiveSlot.presents_run` : **a slot shows the line that was told last, or a change is still to be
  told.**
* `LiveSlot.told_sublist_owed` : **until the line is set again, polls are told no more than what is
  owed**, and that is the new line and its decay at most.
* `LiveSlot.shows_latest_and_tells` : the law of a slot, made of the three.
-/

namespace PadScript

namespace LiveSlot

/-! ### One call -/

variable {idle now : Nat} {line : Text} {s : LiveSlot}

/-- A line stays, or it was set too long ago and decays. -/
theorem decay_cases (now idle : Nat) (s : LiveSlot) :
    s.decay now idle = s ∨
      s.decayed = false ∧ s.isStale now idle = true ∧
        s.decay now idle = { s with decayed := true, dirty := true } := by
  unfold decay
  split
  next hdecays =>
    simp only [Bool.and_eq_true, Bool.not_eq_true'] at hdecays
    exact .inr ⟨hdecays.1.2, hdecays.2, rfl⟩
  next => exact .inl rfl

theorem line_decay (now idle : Nat) (s : LiveSlot) : (s.decay now idle).line = s.line := by
  rcases decay_cases now idle s with hsame | ⟨-, -, hdecays⟩
  · rw [hsame]
  · rw [hdecays]

theorem active_decay (now idle : Nat) (s : LiveSlot) : (s.decay now idle).active = s.active := by
  rcases decay_cases now idle s with hsame | ⟨-, -, hdecays⟩
  · rw [hsame]
  · rw [hdecays]

theorem setAt_decay (now idle : Nat) (s : LiveSlot) : (s.decay now idle).setAt = s.setAt := by
  rcases decay_cases now idle s with hsame | ⟨-, -, hdecays⟩
  · rw [hsame]
  · rw [hdecays]

theorem decayed_decay (now idle : Nat) (s : LiveSlot) :
    (s.decay now idle).decayed = (s.decayed || s.active && s.isStale now idle) := by
  unfold decay
  cases hactive : s.active <;> cases hdecayed : s.decayed <;> cases s.isStale now idle <;>
    simp [hdecayed]

/-- A poll is told the line that is left when it may decay, if that is a change. -/
theorem takeChange_eq (now idle : Nat) (s : LiveSlot) :
    s.takeChange now idle =
      (if (s.decay now idle).dirty then some (s.decay now idle).shown else none,
        { s.decay now idle with dirty := false }) := by
  unfold takeChange
  generalize s.decay now idle = aged
  obtain ⟨line, setAt, active, dirty, decayed, started⟩ := aged
  cases dirty <;> rfl

/-- What a poll leaves does not decay any more at that time. -/
theorem look_takeChange (now idle : Nat) (s : LiveSlot) :
    ((s.takeChange now idle).2.look now idle).1 = (s.takeChange now idle).2.shown := by
  simp only [takeChange_eq, look, shown, decayed_decay, line_decay, active_decay, isStale,
    setAt_decay, Bool.or_assoc, Bool.or_self]

/-- The line shows, unless a change is still to be told. -/
def Presents (line : Text) (s : LiveSlot) : Prop := s.dirty = true ∨ s.shown = line

theorem Presents.set (h : s.Presents line) (next : Text) (now : Nat) :
    (s.set next now).Presents line := by
  unfold Presents at h ⊢
  cases hdirty : s.dirty with
  | true => exact .inl (by simp [LiveSlot.set, hdirty])
  | false =>
    cases hdecayed : s.decayed with
    | true => exact .inl (by simp [LiveSlot.set, hdecayed])
    | false =>
      by_cases hsame : s.line = Text.trim next
      · right
        simp only [hdirty, Bool.false_eq_true, false_or, shown, hdecayed, if_false] at h
        simp [shown, LiveSlot.set, ← hsame, h]
      · exact .inl (by simp [LiveSlot.set, hsame])

theorem Presents.decay (h : s.Presents line) (now idle : Nat) :
    (s.decay now idle).Presents line := by
  rcases decay_cases now idle s with hsame | ⟨-, -, hdecays⟩
  · rwa [hsame]
  · exact .inl (by rw [hdecays])

/-- What a poll leaves shows what it was told, or else what was told before. -/
theorem Presents.takeChange (h : s.Presents line) (now idle : Nat) :
    (s.takeChange now idle).2.shown = (s.takeChange now idle).1.getD line := by
  rw [takeChange_eq]
  rcases h.decay now idle with hdirty | hshown
  · simp [hdirty, shown]
  · cases (s.decay now idle).dirty with
    | true => simp [shown]
    | false => exact hshown

/-- What polls can still be told before the line is set again: a change, and a decay. -/
def owed (s : LiveSlot) : List Text :=
  (if s.dirty then [s.shown] else []) ++ (if s.decayed then [] else [idleLine])

theorem owed_decay_sublist (now idle : Nat) (s : LiveSlot) :
    (s.decay now idle).owed.Sublist s.owed := by
  rcases decay_cases now idle s with hsame | ⟨hdecayed, -, hdecays⟩
  · simp only [hsame, List.Sublist.refl]
  · rw [hdecays, owed, owed, hdecayed]
    exact List.sublist_append_right _ [idleLine]

/-- A poll is told what is owed first. -/
theorem owed_takeChange (now idle : Nat) (s : LiveSlot) :
    (s.takeChange now idle).1.toList ++ (s.takeChange now idle).2.owed =
      (s.decay now idle).owed := by
  rw [takeChange_eq]
  cases hdirty : (s.decay now idle).dirty <;> simp [owed, hdirty]

/-- A line that has not decayed is owed at most, and its decay. -/
theorem owed_sublist (h : s.decayed = false) : s.owed.Sublist [s.line, idleLine] := by
  unfold owed shown
  cases s.dirty <;> simp [h]

/-! ### Calls and what they are told -/

/-- What a slot is called for. -/
inductive Call where
  /-- To begin realtime mode. -/
  | start (now : Nat)
  /-- To end it. -/
  | stop
  /-- To set the line. -/
  | set (line : Text) (now : Nat)
  /-- To tell the line, if it has changed. -/
  | poll (now : Nat)
  /-- To show the line. -/
  | look (now : Nat)
deriving DecidableEq, Repr

namespace Call

/-- When the call was made, if that matters to it. -/
def time? : Call → Option Nat
  | .start now | .set _ now | .poll now | .look now => some now
  | .stop => none

/-- Whether realtime mode is on behind a call that begins or ends it. -/
def mode? : Call → Option Bool
  | .start _ => some true
  | .stop => some false
  | _ => none

/-- The line that a call sets, and when. -/
def setting? : Call → Option (Nat × Text)
  | .start now => some (now, [])
  | .set line now => some (now, Text.trim line)
  | _ => none

end Call

/-- Realtime mode was begun, and has not been ended since. -/
def isOn (calls : List Call) : Bool := (calls.filterMap Call.mode?).getLastD false

/-- The line that was set last, and when. -/
def latest? (calls : List Call) : Option (Nat × Text) := (calls.filterMap Call.setting?).getLast?

/-- A line that was set at some time, as it is to be shown now. -/
def aged (idle : Nat) (setting : Nat × Text) (now : Nat) : Text :=
  if idle < now - setting.1 then idleLine else setting.2

variable (idle)

/-- The slot after a call. -/
def step (s : LiveSlot) : Call → LiveSlot
  | .start now => s.start now
  | .stop => s.stop
  | .set line now => s.set line now
  | .poll now => (s.takeChange now idle).2
  | .look now => (s.look now idle).2

/-- The line that a call is told as a change. -/
def tells? (s : LiveSlot) : Call → Option Text
  | .poll now => (s.takeChange now idle).1
  | _ => none

/-- The slot after some calls. -/
def run (s : LiveSlot) (calls : List Call) : LiveSlot := calls.foldl (step idle) s

/-- The lines that some calls are told, one after another. -/
def told (s : LiveSlot) : List Call → List Text
  | [] => []
  | call :: rest => (s.tells? idle call).toList ++ told (s.step idle call) rest

variable {idle} {calls : List Call}

/-! ### A slot and the latest calls -/

/-- A slot holds what the calls have left of it. -/
structure Reflects (idle : Nat) (calls : List Call) (s : LiveSlot) : Prop where
  /-- Realtime mode is on if it was begun. -/
  active : s.active = isOn calls
  /-- The line is the one that was set last. -/
  latest : latest? calls = s.setAt.map (·, s.line)
  /-- In realtime mode there is one. -/
  begun : s.active = true → s.setAt.isSome
  /-- A decay was found by a call that came late enough. -/
  decayed : s.decayed = true → ∃ t late, s.setAt = some t ∧ idle < late - t ∧
    ∃ call ∈ calls, call.time? = some late

theorem reflects_fresh (idle : Nat) : fresh.Reflects idle [] :=
  ⟨rfl, rfl, nofun, nofun⟩

theorem isOn_concat (calls : List Call) (call : Call) :
    isOn (calls ++ [call]) = call.mode?.getD (isOn calls) := by
  unfold isOn
  rw [List.filterMap_append]
  cases h : call.mode? <;> simp [h, List.getLastD_eq_getLast?]

theorem latest?_concat (calls : List Call) (call : Call) :
    latest? (calls ++ [call]) = call.setting?.or (latest? calls) := by
  unfold latest?
  rw [List.filterMap_append]
  cases h : call.setting? <;> simp [h]

/-- A call that finds the line as it is, or lets it decay. -/
theorem Reflects.decay (h : s.Reflects idle calls) (call : Call) (htime : call.time? = some now)
    (hmode : call.mode? = none) (hsetting : call.setting? = none) :
    (s.decay now idle).Reflects idle (calls ++ [call]) := by
  have hactive : s.active = isOn (calls ++ [call]) := by
    rw [isOn_concat, hmode]
    exact h.active
  have hlatest : latest? (calls ++ [call]) = s.setAt.map (·, s.line) := by
    rw [latest?_concat, hsetting]
    exact h.latest
  rcases decay_cases now idle s with hsame | ⟨-, hstale, hdecays⟩
  · rw [hsame]
    refine ⟨hactive, hlatest, h.begun, fun hdecayed => ?_⟩
    obtain ⟨t, late, hset, hlate, c, hc, hctime⟩ := h.decayed hdecayed
    exact ⟨t, late, hset, hlate, c, List.mem_append_left _ hc, hctime⟩
  · rw [hdecays]
    refine ⟨hactive, hlatest, h.begun, fun _ => ?_⟩
    unfold isStale at hstale
    split at hstale
    next t hset => exact ⟨t, now, hset, of_decide_eq_true hstale, call, by simp, htime⟩
    next => cases hstale

theorem reflects_step (h : s.Reflects idle calls) (call : Call) :
    (s.step idle call).Reflects idle (calls ++ [call]) := by
  cases call with
  | start now =>
    refine ⟨?_, ?_, fun _ => rfl, nofun⟩
    · rw [isOn_concat]
      rfl
    · rw [latest?_concat]
      rfl
  | stop =>
    refine ⟨?_, ?_, nofun, fun hdecayed => ?_⟩
    · rw [isOn_concat]
      rfl
    · rw [latest?_concat]
      exact h.latest
    · obtain ⟨t, late, hset, hlate, c, hc, hctime⟩ := h.decayed hdecayed
      exact ⟨t, late, hset, hlate, c, List.mem_append_left _ hc, hctime⟩
  | set line now =>
    refine ⟨?_, ?_, fun _ => rfl, nofun⟩
    · rw [isOn_concat]
      exact h.active
    · rw [latest?_concat]
      rfl
  | poll now =>
    have hdecay := h.decay (.poll now) rfl rfl rfl
    simp only [step, takeChange_eq]
    exact ⟨hdecay.active, hdecay.latest, hdecay.begun, hdecay.decayed⟩
  | look now => exact h.decay (.look now) rfl rfl rfl

/-- **What a slot holds follows from the latest calls of each kind.** -/
theorem reflects_run (h : s.Reflects idle calls) (more : List Call) :
    (s.run idle more).Reflects idle (calls ++ more) := by
  induction more generalizing s calls with
  | nil => rwa [List.append_nil]
  | cons call rest ih =>
    have hrest := ih (reflects_step h call)
    rwa [List.append_assoc] at hrest

/-- In realtime mode a read shows the latest line, if it was not set too long ago. -/
theorem Reflects.shown_decay (h : s.Reflects idle calls) (hon : isOn calls = true)
    (htimes : ∀ call ∈ calls, ∀ t ∈ call.time?, t ≤ now) :
    ∃ setting, latest? calls = some setting ∧
      (s.decay now idle).shown = aged idle setting now := by
  have hactive : s.active = true := h.active.trans hon
  obtain ⟨t, hset⟩ := Option.isSome_iff_exists.1 (h.begun hactive)
  refine ⟨(t, s.line), by rw [h.latest, hset]; rfl, ?_⟩
  have hstale : s.isStale now idle = decide (idle < now - t) := by simp only [isStale, hset]
  simp only [shown, decayed_decay, line_decay, hactive, hstale, Bool.true_and, aged,
    Bool.or_eq_true, decide_eq_true_eq]
  by_cases hlate : idle < now - t
  · simp only [hlate, or_true, if_true]
  · have hfresh : s.decayed ≠ true := fun hdecayed => by
      obtain ⟨t', late, hset', hlate', c, hc, hctime⟩ := h.decayed hdecayed
      obtain rfl : t = t' := Option.some.inj (hset.symm.trans hset')
      have hle := htimes c hc late hctime
      omega
    rw [if_neg (by simp [hlate, hfresh]), if_neg hlate]

/-! ### What polls are told -/

theorem run_append (s : LiveSlot) (calls more : List Call) :
    s.run idle (calls ++ more) = (s.run idle calls).run idle more := List.foldl_append

/-- The line that some calls were told last, or else what was told before. -/
theorem getLastD_told_cons (s : LiveSlot) (call : Call) (rest : List Call) (line : Text) :
    (s.told idle (call :: rest)).getLastD line =
      ((s.step idle call).told idle rest).getLastD ((s.tells? idle call).getD line) := by
  simp only [told, List.getLastD_eq_getLast?, List.getLast?_append]
  cases ((s.step idle call).told idle rest).getLast? <;> cases s.tells? idle call <;> rfl

theorem getLastD_told_append (s : LiveSlot) (calls more : List Call) (line : Text) :
    (s.told idle (calls ++ more)).getLastD line =
      ((s.run idle calls).told idle more).getLastD ((s.told idle calls).getLastD line) := by
  induction calls generalizing s line with
  | nil => rfl
  | cons call rest ih =>
    rw [List.cons_append, getLastD_told_cons, ih, getLastD_told_cons]
    rfl

theorem presents_fresh : fresh.Presents [] := .inr rfl

theorem presents_step (idle : Nat) (h : s.Presents line) (call : Call) :
    (s.step idle call).Presents ((s.tells? idle call).getD line) := by
  cases call with
  | start now => exact .inl rfl
  | stop => exact h
  | set next now => exact h.set next now
  | poll now => exact .inr (h.takeChange now idle)
  | look now => exact h.decay now idle

/-- **A slot shows the line that was told last, or a change is still to be told.** -/
theorem presents_run (idle : Nat) (h : s.Presents line) (calls : List Call) :
    (s.run idle calls).Presents ((s.told idle calls).getLastD line) := by
  induction calls generalizing s line with
  | nil => exact h
  | cons call rest ih =>
    have hrest := ih (presents_step idle h call)
    rwa [getLastD_told_cons]

theorem owed_step_sublist (idle : Nat) (s : LiveSlot) {call : Call} (h : call.setting? = none) :
    ((s.tells? idle call).toList ++ (s.step idle call).owed).Sublist s.owed := by
  cases call with
  | start | set => cases h
  | stop => exact List.Sublist.refl _
  | poll now =>
    have htold := owed_takeChange now idle s
    simp only [tells?, step, htold]
    exact owed_decay_sublist now idle s
  | look now => exact owed_decay_sublist now idle s

/-- **Until the line is set again, polls are told no more than what is owed.** -/
theorem told_sublist_owed (s : LiveSlot) (h : ∀ call ∈ calls, call.setting? = none) :
    (s.told idle calls).Sublist s.owed := by
  induction calls generalizing s with
  | nil => exact List.nil_sublist _
  | cons call rest ih =>
    have hrest := ih (s.step idle call) fun c hc => h c (List.mem_cons_of_mem _ hc)
    have hfirst := owed_step_sublist idle s (h call List.mem_cons_self)
    exact (hrest.append_left _).trans hfirst

/-- Where a line was just set, the line and its decay are owed at most. -/
theorem owed_step_of_setting (s : LiveSlot) {call : Call} {setting : Nat × Text}
    (h : call.setting? = some setting) :
    (s.step idle call).owed.Sublist [setting.2, idleLine] := by
  cases call with
  | start now =>
    cases h
    exact owed_sublist rfl
  | set next now =>
    cases h
    exact owed_sublist rfl
  | stop | poll | look => cases h

/-! ### The law of a slot -/

/-- **The law of a slot.** In realtime mode a read shows the line that was set last, or the idle line
if that was too long ago. A poll leaves the line shown that was told last, the empty one if none was.
Where a line was set, polls are told it and its decay, each once at most, until the next one is. -/
theorem shows_latest_and_tells (idle : Nat) {calls : List Call} {now : Nat}
    (htimes : ∀ call ∈ calls, ∀ t ∈ call.time?, t ≤ now) :
    (isOn calls = true → ∃ setting, latest? calls = some setting ∧
      ((fresh.run idle calls).look now idle).1 = aged idle setting now ∧
      ∀ line, (fresh.run idle calls).tells? idle (.poll now) = some line →
        line = aged idle setting now) ∧
    ((fresh.run idle (calls ++ [.poll now])).look now idle).1 =
      (fresh.told idle (calls ++ [.poll now])).getLastD [] ∧
    ∀ before opening setting between behind,
      calls = before ++ opening :: (between ++ behind) → opening.setting? = some setting →
      (∀ call ∈ between, call.setting? = none) →
      ((fresh.run idle (before ++ [opening])).told idle between).Sublist [setting.2, idleLine] := by
  refine ⟨fun hon => ?_, ?_, fun before opening setting between behind _ hsetting hbetween => ?_⟩
  · obtain ⟨setting, hlatest, hshown⟩ :=
      (reflects_run (reflects_fresh idle) calls).shown_decay hon htimes
    refine ⟨setting, hlatest, hshown, fun line hline => ?_⟩
    simp only [tells?, takeChange_eq] at hline
    split at hline
    · exact (Option.some.inj hline).symm.trans hshown
    · cases hline
  · rw [run_append, getLastD_told_append, getLastD_told_cons]
    have hpresents := presents_run idle presents_fresh calls
    exact (look_takeChange now idle _).trans (hpresents.takeChange now idle)
  · rw [run_append]
    exact (told_sublist_owed _ hbetween).trans (owed_step_of_setting _ hsetting)

/-- A line is polled in time, and then looked at when it has lapsed. -/
def lapsing : List Call := [.start 0, .set " A ".toList 100, .poll 103, .look 2101]

/-- The look shows the idle line, and that is told by the next poll. -/
theorem shows_latest_and_tells_lapsing :
    (∀ call ∈ lapsing, ∀ t ∈ call.time?, t ≤ 2101) ∧ isOn lapsing = true ∧
      ((fresh.run 2000 lapsing).look 2101 2000).1 = idleLine ∧
      ((fresh.run 2000 (lapsing ++ [.poll 2101])).look 2101 2000).1 =
        (fresh.told 2000 (lapsing ++ [.poll 2101])).getLastD [] ∧
      ((fresh.run 2000 ([.start 0] ++ [.set " A ".toList 100])).told 2000
        [.poll 103, .look 2101]).Sublist [['A'], idleLine] := by
  have htimes : ∀ call ∈ lapsing, ∀ t ∈ call.time?, t ≤ 2101 := by decide
  obtain ⟨hshows, hlast, htwice⟩ := shows_latest_and_tells 2000 htimes
  obtain ⟨setting, hlatest, hlook, -⟩ := hshows (by decide)
  have hline : aged 2000 setting 2101 = idleLine := by
    obtain rfl : (100, ['A']) = setting := Option.some.inj (by rw [← hlatest]; decide)
    decide
  refine ⟨htimes, by decide, hlook.trans hline, hlast, ?_⟩
  exact htwice [.start 0] (.set " A ".toList 100) (100, ['A']) [.poll 103, .look 2101] [] rfl
    (by decide) (by decide)

end LiveSlot

end PadScript
