import PadScript.Proofs.Joystick.Send

/-!
# A send is all or nothing

A send on a joystick waits for the sink, for its time and for the sink's answers, and it can be
cancelled at any moment. However long each of these takes, and whatever the other tasks do until it
gets the sink, it ends in one of two ways: the sink has taken its report, once, and the pacer knows
it, or neither of them has changed.

* `Write.step_eq` : what an attempt comes to is up to what the sink says next.
* `Send.Stands.step` : **a step of a send that has the sink keeps the accounts, or closes them.**
* `Schedule.Fair` : what the other tasks have to let a send do.
* `Schedule.Fair.exists_endsAt` : a send that has the sink is over in the end.
* `Send.all_or_nothing` : **a send ends, and then it has done all or nothing.**
-/

namespace PadScript

/-! ### What the sink says -/

/-- The first things that the sink says. Where nothing is settled, it takes the report. -/
def Sink.tells (s : Sink) (count : Nat) : List Outcome :=
  (List.range count).map fun i => s.outcomes.getD i .taken

/-- What the sink answers with these to the attempts to write a report: one that is not over yet is
no answer. -/
def Sink.answers (s : Sink) (count : Nat) : List Outcome :=
  (s.tells count).filter (· != .suspended)

theorem Sink.answers_succ (s : Sink) (n : Nat) :
    s.answers (n + 1) =
      s.answers n ++ [s.outcomes.getD n .taken].filter (· != .suspended) := by
  rw [answers, tells, List.range_succ, List.map_append, List.filter_append]
  rfl

theorem Sink.answers_succ_of_answer {s : Sink} {n : Nat} {o : Outcome}
    (h : s.outcomes.getD n .taken = o) (ho : o ≠ .suspended) :
    s.answers (n + 1) = s.answers n ++ [o] := by
  have hfilter : [o].filter (· != .suspended) = [o] := by simp [ho]
  rw [answers_succ, h, hfilter]

theorem Sink.answers_succ_of_suspended {s : Sink} {n : Nat}
    (h : s.outcomes.getD n .taken = .suspended) : s.answers (n + 1) = s.answers n := by
  rw [answers_succ, h]
  exact List.append_nil _

namespace Write

/-- What a report that is written comes to when the sink says something. -/
def heed (now : Nat) (w : Write) (s : Sink) : Outcome → Turn Sink Write (Except OutputError Unit)
  | .taken => .done ⟨s.outcomes, s.sent ++ [(now, w.report)], s.attempts + 1⟩ (.ok ())
  | .suspended => .wait s w true
  | .refused e =>
    match e, w.retries with
    | .wouldBlock, retries + 1 => .go { s with attempts := s.attempts + 1 } ⟨w.report, retries⟩
    | e, _ => .done { s with attempts := s.attempts + 1 } (.error e)

theorem heed_retry {retries : Nat} (now : Nat) {w : Write} (h : w.retries = retries + 1)
    (s : Sink) : w.heed now s (.refused .wouldBlock) =
      .go { s with attempts := s.attempts + 1 } ⟨w.report, retries⟩ := by
  simp [heed, h]

theorem heed_fail (now : Nat) {w : Write} {e : OutputError}
    (h : e = .wouldBlock → w.retries = 0) (s : Sink) :
    w.heed now s (.refused e) = .done { s with attempts := s.attempts + 1 } (.error e) := by
  cases e with
  | wouldBlock => simp [heed, h rfl]
  | disconnected => rfl
  | io => rfl

theorem step_eq (now : Nat) (w : Write) (s : Sink) :
    w.step now s =
      w.heed now ⟨s.outcomes.tail, s.sent, s.attempts⟩ (s.outcomes.getD 0 .taken) := by
  obtain ⟨outcomes, sent, attempts⟩ := s
  cases outcomes with
  | nil => rfl
  | cons o rest =>
    cases o with
    | taken => rfl
    | suspended => rfl
    | refused e => rfl

end Write

namespace Send

/-! ### Accounts -/

/-- What a send has come to that got the sink when the pad was `p`, and leaves the pad `q`. -/
inductive AllOrNothing (line : Text) (time : Nat) (isCancelled : Bool) (p q : Pad) :
    Except RunError Nat → Prop
  /-- After at most three attempts that blocked, the sink took the report, and the pacer recorded
  it. -/
  | all {said blocked : Nat} : blocked ≤ 3 →
      p.sink.answers said = .replicate blocked (.refused .wouldBlock) ++ [.taken] →
      q.sink = ⟨p.sink.outcomes.drop said, p.sink.sent ++ [(time, p.encode line)],
        p.sink.attempts + (blocked + 1)⟩ →
      q.pacer = p.pacer.record time → AllOrNothing line time isCancelled p q (.ok time)
  /-- It was cancelled before any attempt. -/
  | cancelled : isCancelled = true → q.sink = p.sink → q.pacer = p.pacer →
      AllOrNothing line time isCancelled p q (.error .cancelled)
  /-- The sink gave another answer than that it would block, or this one for the fourth time. -/
  | refused {said blocked : Nat} {e : OutputError} :
      blocked ≤ 3 → (e = .wouldBlock → blocked = 3) →
      p.sink.answers said = .replicate blocked (.refused .wouldBlock) ++ [.refused e] →
      q.sink = ⟨p.sink.outcomes.drop said, p.sink.sent, p.sink.attempts + (blocked + 1)⟩ →
      q.pacer = p.pacer → AllOrNothing line time isCancelled p q (.error (.output e))

/-- How a send stands that got the sink when the pad was `p`, and has the pad `q` now. -/
inductive Stands (line : Text) (p q : Pad) : SendPhase → Prop
  /-- It waits for its time, and has done nothing. -/
  | pacing {deadline : Nat} : q.sink = p.sink → q.pacer = p.pacer →
      Stands line p q (.pacing deadline)
  /-- It writes its report, and all attempts have blocked. -/
  | writing {said blocked : Nat} : blocked ≤ 3 →
      p.sink.answers said = .replicate blocked (.refused .wouldBlock) →
      q.sink = ⟨p.sink.outcomes.drop said, p.sink.sent, p.sink.attempts + blocked⟩ →
      q.pacer = p.pacer → Stands line p q (.writing ⟨p.encode line, 3 - blocked⟩)

variable {line : Text} {p q q' : Pad} {x : Send} {now : Nat} {isCancelled : Bool}

theorem Stands.ne_asking (h : Stands line p q x.phase) : x.phase ≠ .asking := by
  generalize x.phase = phase at h
  cases h <;> nofun

/-- What others do to the pad does not matter, if they leave the sink and the pacer alone. -/
theorem Stands.congr {phase : SendPhase} (h : Stands line p q phase) (hsink : q'.sink = q.sink)
    (hpacer : q'.pacer = q.pacer) : Stands line p q' phase := by
  cases h with
  | pacing hs hp => exact .pacing (hsink.trans hs) (hpacer.trans hp)
  | writing hk hsaid hs hp => exact .writing hk hsaid (hsink.trans hs) (hpacer.trans hp)

theorem stands_toWrite (x : Send) (hsink : q.sink = p.sink) (hpacer : q.pacer = p.pacer) :
    Stands line p q (x.toWrite (.ofReport (p.encode line))).phase :=
  have hnothing : p.sink.answers 0 = .replicate 0 (.refused .wouldBlock) := rfl
  .writing (Nat.zero_le 3) hnothing hsink hpacer

/-- How a send that has the sink gets on: it sleeps until its time has come, and then it makes
attempts as long as the sink has something else to say than that it takes the report. -/
inductive Advances (now : Nat) (x : Send) (q : Pad) (x' : Send) (q' : Pad) : Prop
  /-- It goes on sleeping. -/
  | sleep {deadline : Nat} : x.phase = .pacing deadline → now < deadline →
      x'.phase = .pacing deadline → Advances now x q x' q'
  /-- It wakes up. -/
  | wake {deadline : Nat} {w : Write} : x.phase = .pacing deadline → x'.phase = .writing w →
      Advances now x q x' q'
  /-- The sink has said something. -/
  | heed {w w' : Write} : x.phase = .writing w → x'.phase = .writing w' →
      q'.sink.outcomes.length < q.sink.outcomes.length → Advances now x q x' q'

/-- What a step comes to of a send that has the sink: it stands as before and gets on, or it is over
and has done all or nothing. -/
def KeepsAccounts (line : Text) (now : Nat) (isCancelled : Bool) (p : Pad) (x : Send) (q : Pad) :
    Turn Pad Send (Except RunError Nat) → Prop
  | .wait q' x' _ | .go q' x' =>
    x'.line = line ∧ q'.profile = q.profile ∧ Stands line p q' x'.phase ∧ Advances now x q x' q'
  | .done q' r => AllOrNothing line now isCancelled p q' r

theorem Stands.pace_step {deadline : Nat} (hprofile : q.profile = .horipadS)
    (hsame : p.profile = q.profile) (hline : x.line = line) (hphase : x.phase = .pacing deadline)
    (h : Stands line p q x.phase) (now : Nat) (isCancelled : Bool) :
    KeepsAccounts line now isCancelled p x q (x.step now isCancelled q) := by
  have hmoves := moves_step hprofile now isCancelled x
  have hstands := h
  rw [hphase] at h
  obtain ⟨hsink, hpacer⟩ : q.sink = p.sink ∧ q.pacer = p.pacer := by
    cases h with
    | pacing hs hp => exact ⟨hs, hp⟩
  generalize x.step now isCancelled q = turn at hmoves
  cases hmoves with
  | queue hasking _ | refuse hasking _ _ | take hasking _ _ _ | takeNow hasking _ _ =>
    exact nomatch hphase.symm.trans hasking
  | suspend hwriting _ | retry hwriting _ _ | accept hwriting _ | fail hwriting _ =>
    exact nomatch hphase.symm.trans hwriting
  | sleep hpacing hlt => exact ⟨hline, rfl, hstands, .sleep hpacing hlt hpacing⟩
  | giveUp _ hcancelled => exact .cancelled hcancelled hsink hpacer
  | wake hpacing _ =>
    have hcode : q.encode x.line = p.encode line := by rw [Pad.encode, Pad.encode, hsame, hline]
    rw [hcode]
    exact ⟨hline, rfl, stands_toWrite x hsink hpacer, .wake hpacing rfl⟩

theorem Stands.write_step {w : Write} (hline : x.line = line) (hphase : x.phase = .writing w)
    (h : Stands line p q x.phase) (now : Nat) (isCancelled : Bool) :
    KeepsAccounts line now isCancelled p x q (x.step now isCancelled q) := by
  rw [hphase] at h
  cases h with
  | @writing said blocked hblocked hsaid hsink hpacer =>
    have htells : q.sink.outcomes.getD 0 .taken = p.sink.outcomes.getD said .taken := by
      simp [hsink]
    have hless : q.sink.outcomes.getD 0 .taken ≠ .taken →
        q.sink.outcomes.tail.length < q.sink.outcomes.length := by
      cases q.sink.outcomes <;> simp
    simp only [step, hphase, Write.step_eq]
    cases ho : q.sink.outcomes.getD 0 .taken with
    | taken =>
      have hanswers := Sink.answers_succ_of_answer (htells.symm.trans ho) (by simp)
      rw [hsaid] at hanswers
      refine .all hblocked hanswers ?_ (congrArg (·.record now) hpacer)
      simp [letGo, hsink, Nat.add_assoc]
    | suspended =>
      have hanswers := Sink.answers_succ_of_suspended (htells.symm.trans ho)
      have hleft := hless (by rw [ho]; simp)
      refine ⟨hline, rfl, .writing hblocked (hanswers.trans hsaid) ?_ hpacer,
        .heed hphase rfl hleft⟩
      simp [hsink]
    | refused e =>
      have hanswers := Sink.answers_succ_of_answer (htells.symm.trans ho) (by simp)
      have hleft := hless (by rw [ho]; simp)
      rw [hsaid] at hanswers
      by_cases hlast : e = .wouldBlock → blocked = 3
      · rw [Write.heed_fail now (fun he => by simp [hlast he])]
        refine .refused hblocked hlast hanswers ?_ hpacer
        simp [letGo, hsink, Nat.add_assoc]
      · obtain ⟨rfl, hmore⟩ := Classical.not_imp.1 hlast
        have hretries : 3 - blocked = 3 - (blocked + 1) + 1 := by omega
        rw [Write.heed_retry now hretries]
        refine ⟨hline, rfl, .writing (by omega) (hanswers.trans ?_) ?_ hpacer,
          .heed hphase rfl hleft⟩
        · simp [List.replicate_succ']
        · simp [hsink, Nat.add_assoc]

/-- **A step of a send that has the sink keeps the accounts, or closes them.** -/
theorem Stands.step (hprofile : q.profile = .horipadS) (hsame : p.profile = q.profile)
    (hline : x.line = line) (h : Stands line p q x.phase) (now : Nat) (isCancelled : Bool) :
    KeepsAccounts line now isCancelled p x q (x.step now isCancelled q) := by
  cases hphase : x.phase with
  | asking => exact absurd hphase h.ne_asking
  | pacing deadline => exact h.pace_step hprofile hsame hline hphase now isCancelled
  | writing w => exact h.write_step hline hphase now isCancelled

/-- What the first step comes to that finds the sink free. -/
theorem take_step (hprofile : p.profile = .horipadS) (hfree : p.sinkHeld = false)
    (hline : x.line = line) (hphase : x.phase = .asking) (now : Nat) (isCancelled : Bool) :
    (∃ q, x.step now isCancelled p = .done q (.error .cancelled) ∧
        AllOrNothing line now isCancelled p q (.error .cancelled)) ∨
      ∃ q x', x.step now isCancelled p = .go q x' ∧
        x'.line = line ∧ q.profile = p.profile ∧ Stands line p q x'.phase := by
  have hmoves := moves_step hprofile now isCancelled x
  generalize x.step now isCancelled p = turn at hmoves
  cases hmoves with
  | queue _ hheld => exact nomatch hfree.symm.trans hheld
  | refuse _ _ hcancelled => exact .inl ⟨_, rfl, .cancelled hcancelled rfl rfl⟩
  | take _ _ _ _ => exact .inr ⟨_, _, rfl, hline, rfl, .pacing rfl rfl⟩
  | takeNow _ _ _ =>
    rw [hline]
    exact .inr ⟨_, _, rfl, hline, rfl, stands_toWrite x rfl rfl⟩
  | sleep hpacing _ | giveUp hpacing _ | wake hpacing _ =>
    exact nomatch hphase.symm.trans hpacing
  | suspend hwriting _ | retry hwriting _ _ | accept hwriting _ | fail hwriting _ =>
    exact nomatch hphase.symm.trans hwriting

end Send

/-! ### A send among other tasks -/

/-- What a send finds whenever it makes a step. -/
structure Schedule where
  /-- The time. -/
  now : Nat → Nat
  /-- The send is cancelled by then. -/
  isCancelled : Nat → Bool
  /-- What others have done to the pad since the step before. -/
  others : Nat → Pad → Pad

namespace Schedule

/-- Where a send has got to, and how it has left the pad. -/
inductive Stage where
  /-- It is not over. -/
  | running (x : Send) (p : Pad)
  /-- It is over. -/
  | over (p : Pad) (result : Except RunError Nat)

/-- Where a send gets to in one step. -/
def next (s : Schedule) (n : Nat) (x : Send) (p : Pad) : Stage :=
  match x.step (s.now n) (s.isCancelled n) (s.others n p) with
  | .wait p x _ | .go p x => .running x p
  | .done p result => .over p result

/-- Where a send has got to after some steps. -/
def stage (s : Schedule) (x : Send) (p : Pad) : (steps : Nat) → Stage
  | 0 => .running x p
  | n + 1 =>
    match s.stage x p n with
    | .running x p => s.next n x p
    | .over p result => .over p result

/-- The others let a send come to its end. -/
structure Fair (s : Schedule) (x : Send) (p : Pad) : Prop where
  /-- Every time comes. -/
  later (t : Nat) : ∃ n, ∀ m, n ≤ m → t ≤ s.now m
  /-- The pad is not replaced. -/
  profile (n : Nat) (q : Pad) : (s.others n q).profile = q.profile
  /-- At some time the sink is free, if the send still asks for it. -/
  free : ∃ n, ∀ y q, s.stage x p n = .running y q → y.phase = .asking →
    (s.others n q).sinkHeld = false
  /-- While the send has the sink, nobody else uses the sink or the pacer. -/
  sole {n : Nat} {y : Send} {q : Pad} : s.stage x p n = .running y q → y.phase ≠ .asking →
    (s.others n q).sink = q.sink ∧ (s.others n q).pacer = q.pacer

variable {s : Schedule} {x y : Send} {p q p₀ : Pad} {line : Text} {n : Nat}

theorem stage_succ (h : s.stage x p n = .running y q) :
    s.stage x p (n + 1) = s.next n y q := by
  rw [stage, h]

/-- After some steps a send has had the sink since the pad was `p₀`, and goes on. -/
structure InHand (s : Schedule) (x : Send) (p : Pad) (line : Text) (p₀ : Pad) (n : Nat) (y : Send)
    (q : Pad) : Prop where
  /-- It has got here. -/
  reached : s.stage x p n = .running y q
  /-- It is a send of this line. -/
  sends : y.line = line
  /-- The pad is a joystick. -/
  profile : q.profile = .horipadS
  /-- It was one before. -/
  before : p₀.profile = .horipadS
  /-- It has kept the accounts. -/
  stands : Send.Stands line p₀ q y.phase

/-- A send is over after one more step, and has done all or nothing. -/
def EndsAt (s : Schedule) (x : Send) (p : Pad) (line : Text) (p₀ : Pad) (m : Nat) : Prop :=
  ∃ q r, s.stage x p (m + 1) = .over q r ∧
    Send.AllOrNothing line (s.now m) (s.isCancelled m) p₀ q r

/-- One more step of a send that has the sink. -/
theorem Fair.step (hfair : s.Fair x p) (h : s.InHand x p line p₀ n y q) :
    s.EndsAt x p line p₀ n ∨ ∃ y' q', s.InHand x p line p₀ (n + 1) y' q' ∧
      Send.Advances (s.now n) y q y' q' := by
  obtain ⟨hsink, hpacer⟩ := hfair.sole h.reached h.stands.ne_asking
  have hprofile := (hfair.profile n q).trans h.profile
  have haccounts := (h.stands.congr hsink hpacer).step hprofile (h.before.trans hprofile.symm)
    h.sends (s.now n) (s.isCancelled n)
  have hnext := stage_succ h.reached
  rw [next] at hnext
  have hgoes : ∀ {y' q'}, s.stage x p (n + 1) = .running y' q' →
      (y'.line = line ∧ q'.profile = (s.others n q).profile ∧ Send.Stands line p₀ q' y'.phase ∧
        Send.Advances (s.now n) y (s.others n q) y' q') →
      ∃ y' q', s.InHand x p line p₀ (n + 1) y' q' ∧ Send.Advances (s.now n) y q y' q' := by
    rintro y' q' hstage ⟨hline, hkept, hstands, hadvances⟩
    refine ⟨y', q', ⟨hstage, hline, hkept.trans hprofile, h.before, hstands⟩, ?_⟩
    cases hadvances with
    | sleep hpacing hlt hpacing' => exact .sleep hpacing hlt hpacing'
    | wake hpacing hwriting => exact .wake hpacing hwriting
    | heed hwriting hwriting' hless => exact .heed hwriting hwriting' (hsink ▸ hless)
  cases hstep : y.step (s.now n) (s.isCancelled n) (s.others n q) with
  | wait q' y' again =>
    rw [hstep] at haccounts hnext
    exact .inr (hgoes hnext haccounts)
  | go q' y' =>
    rw [hstep] at haccounts hnext
    exact .inr (hgoes hnext haccounts)
  | done q' r =>
    rw [hstep] at haccounts hnext
    exact .inl ⟨q', r, hnext, haccounts⟩

/-- A send that writes its report is over as soon as the sink has nothing left to say. -/
theorem Fair.ends_of_writing (hfair : s.Fair x p) {w : Write}
    (h : s.InHand x p line p₀ n y q) (hphase : y.phase = .writing w) :
    ∃ m, n ≤ m ∧ s.EndsAt x p line p₀ m := by
  -- on what the sink still has to say
  induction hleft : q.sink.outcomes.length using Nat.strongRecOn generalizing n y q w with
  | ind left ih =>
    rcases hfair.step h with hends | ⟨y', q', hnext, hadvances⟩
    · exact ⟨n, Nat.le_refl n, hends⟩
    · cases hadvances with
      | sleep hpacing _ _ | wake hpacing _ => exact nomatch hphase.symm.trans hpacing
      | heed _ hwriting hless =>
        obtain ⟨m, hm, hends⟩ := ih _ (hleft ▸ hless) hnext hwriting rfl
        exact ⟨m, Nat.le_of_succ_le hm, hends⟩

/-- A send that waits for its time wakes up, unless it is cancelled. -/
theorem Fair.ends_of_pacing (hfair : s.Fair x p) {deadline : Nat}
    (h : s.InHand x p line p₀ n y q) (hphase : y.phase = .pacing deadline) :
    ∃ m, n ≤ m ∧ s.EndsAt x p line p₀ m := by
  obtain ⟨last, hlast⟩ := hfair.later deadline
  -- on the steps that are left until the time has come
  induction hleft : last - n using Nat.strongRecOn generalizing n y q with
  | ind left ih =>
    rcases hfair.step h with hends | ⟨y', q', hnext, hadvances⟩
    · exact ⟨n, Nat.le_refl n, hends⟩
    · cases hadvances with
      | @sleep d hpacing hlt hpacing' =>
        obtain rfl := SendPhase.pacing.inj (hphase.symm.trans hpacing)
        have hmore : n < last := Nat.lt_of_not_le fun hle => Nat.not_le.2 hlt (hlast n hle)
        obtain ⟨m, hm, hends⟩ := ih _ (by omega) hnext hpacing' rfl
        exact ⟨m, Nat.le_of_succ_le hm, hends⟩
      | wake _ hwriting =>
        obtain ⟨m, hm, hends⟩ := hfair.ends_of_writing hnext hwriting
        exact ⟨m, Nat.le_of_succ_le hm, hends⟩
      | heed hwriting _ _ => exact nomatch hphase.symm.trans hwriting

/-- **A send that has the sink is over in the end.** -/
theorem Fair.exists_endsAt (hfair : s.Fair x p) (h : s.InHand x p line p₀ n y q) :
    ∃ m, n ≤ m ∧ s.EndsAt x p line p₀ m := by
  cases hphase : y.phase with
  | asking => exact absurd hphase h.stands.ne_asking
  | pacing deadline => exact hfair.ends_of_pacing h hphase
  | writing w => exact hfair.ends_of_writing h hphase

/-! ### The wait for the sink -/

/-- After some steps a send finds the sink free, and the pad is `p₀` then. Before, somebody held it,
and the send left the pad as it found it. -/
structure FindsFree (s : Schedule) (x : Send) (p : Pad) (n : Nat) (p₀ : Pad) : Prop where
  /-- Somebody held it. -/
  before : ∀ k < n, ∃ q, s.stage x p k = .running x q ∧ (s.others k q).sinkHeld = true ∧
    s.stage x p (k + 1) = .running x (s.others k q)
  /-- It is free. -/
  free : ∃ q, s.stage x p n = .running x q ∧ s.others n q = p₀ ∧ p₀.sinkHeld = false

theorem next_of_held (hfair : s.Fair x p) (hphase : x.phase = .asking)
    (hprofile : q.profile = .horipadS) (hheld : (s.others n q).sinkHeld = true) :
    s.next n x q = .running x (s.others n q) := by
  have hprofile' := (hfair.profile n q).trans hprofile
  simp only [next, Send.step, hphase, hprofile', hheld, if_true]

/-- Until it finds the sink free a send only asks for it. -/
theorem Fair.finds_or_waits (hfair : s.Fair x p) (hphase : x.phase = .asking)
    (hprofile : p.profile = .horipadS) (n : Nat) :
    (∃ m < n, ∃ p₀, p₀.profile = .horipadS ∧ s.FindsFree x p m p₀) ∨
      (∀ k < n, ∃ q, s.stage x p k = .running x q ∧ (s.others k q).sinkHeld = true ∧
        s.stage x p (k + 1) = .running x (s.others k q)) ∧
      ∃ q, q.profile = .horipadS ∧ s.stage x p n = .running x q := by
  induction n with
  | zero => exact .inr ⟨nofun, p, hprofile, rfl⟩
  | succ n ih =>
    rcases ih with ⟨m, hm, hfinds⟩ | ⟨hbefore, q, hq, hstage⟩
    · exact .inl ⟨m, Nat.lt_succ_of_lt hm, hfinds⟩
    · have hq' := (hfair.profile n q).trans hq
      cases hheld : (s.others n q).sinkHeld with
      | false => exact .inl ⟨n, Nat.lt_succ_self n, _, hq', hbefore, q, hstage, rfl, hheld⟩
      | true =>
        have hnext := (stage_succ hstage).trans (next_of_held hfair hphase hq hheld)
        refine .inr ⟨fun k hk => ?_, _, hq', hnext⟩
        rcases Nat.lt_succ_iff_lt_or_eq.1 hk with hk | rfl
        · exact hbefore k hk
        · exact ⟨q, hstage, hheld, hnext⟩

theorem Fair.exists_findsFree (hfair : s.Fair x p) (hphase : x.phase = .asking)
    (hprofile : p.profile = .horipadS) :
    ∃ n p₀, p₀.profile = .horipadS ∧ s.FindsFree x p n p₀ := by
  obtain ⟨n, hfree⟩ := hfair.free
  rcases hfair.finds_or_waits hphase hprofile n with ⟨m, -, p₀, hfinds⟩ | ⟨hbefore, q, hq, hstage⟩
  · exact ⟨m, p₀, hfinds⟩
  · exact ⟨n, _, (hfair.profile n q).trans hq, hbefore, q, hstage, rfl, hfree x q hstage hphase⟩

end Schedule

/-- **A send ends, whatever the sink says and whenever it is cancelled, and then it has done all or
nothing since it found the sink free.** -/
theorem Send.all_or_nothing {s : Schedule} {p : Pad} (line : Text) (notBefore : Option Nat)
    (hprofile : p.profile = .horipadS) (hfair : s.Fair (.ofLine line notBefore) p) :
    ∃ n m p₀ q r, n ≤ m ∧ s.FindsFree (.ofLine line notBefore) p n p₀ ∧
      s.stage (.ofLine line notBefore) p (m + 1) = .over q r ∧
      AllOrNothing line (s.now m) (s.isCancelled m) p₀ q r := by
  obtain ⟨n, p₀, hbefore, hfinds⟩ := hfair.exists_findsFree rfl hprofile
  obtain ⟨q, hstage, rfl, hfree⟩ := hfinds.free
  have hnext := Schedule.stage_succ hstage
  rw [Schedule.next] at hnext
  have hfirst := take_step (x := .ofLine line notBefore) hbefore hfree rfl rfl (s.now n)
    (s.isCancelled n)
  rcases hfirst with ⟨q', hstep, hnothing⟩ | ⟨q', x', hstep, hline, hkept, hstands⟩
  · rw [hstep] at hnext
    exact ⟨n, n, _, q', _, Nat.le_refl n, hfinds, hnext, hnothing⟩
  · rw [hstep] at hnext
    obtain ⟨m, hm, q'', r, hover, hdone⟩ :=
      hfair.exists_endsAt ⟨hnext, hline, hkept.trans hbefore, hbefore, hstands⟩
    exact ⟨n, m, _, q'', r, Nat.le_of_succ_le hm, hfinds, hover, hdone⟩

/-- A schedule in which somebody has just taken the sink, and sends a report. -/
def Schedule.behindAnother : Schedule where
  now n := 1000 * n
  isCancelled n := 7 ≤ n
  others n p :=
    match n with
    | 0 => { p with sinkHeld := true }
    | 1 => { p with sinkHeld := false, pacer := p.pacer.record 500 }
    | _ => p

/-- A joystick whose host is slow. -/
def Pad.slow : Pad :=
  { Pad.switchedOn .horipadS .standard 0 with
    sink := ⟨[.refused .wouldBlock, .suspended, .refused .wouldBlock], [], 0⟩ }

theorem Schedule.fair_behindAnother : behindAnother.Fair (.ofLine "A".toList none) .slow where
  later t := ⟨t, fun m hm => Nat.le_trans hm (Nat.le_mul_of_pos_left m (by decide))⟩
  profile n q := by
    match n with
    | 0 => rfl
    | 1 => rfl
    | _ + 2 => rfl
  free := ⟨1, fun _ _ _ _ => rfl⟩
  sole {n y q} hstage hphase := by
    match n with
    | 0 =>
      obtain ⟨rfl, -⟩ := Stage.running.inj hstage
      exact absurd rfl hphase
    | 1 =>
      have hwaits : behindAnother.stage (.ofLine "A".toList none) .slow 1 =
          .running (.ofLine "A".toList none) (behindAnother.others 0 .slow) := rfl
      obtain ⟨rfl, -⟩ := Stage.running.inj (hwaits.symm.trans hstage)
      exact absurd rfl hphase
    | _ + 2 => exact ⟨rfl, rfl⟩

theorem Send.all_or_nothing_behindAnother :
    Pad.slow.profile = .horipadS ∧ Schedule.behindAnother.Fair (.ofLine "A".toList none) .slow ∧
      ∃ n m p₀ q r, n ≤ m ∧
        Schedule.behindAnother.FindsFree (.ofLine "A".toList none) .slow n p₀ ∧
        Schedule.behindAnother.stage (.ofLine "A".toList none) .slow (m + 1) = .over q r ∧
        AllOrNothing "A".toList (Schedule.behindAnother.now m)
          (Schedule.behindAnother.isCancelled m) p₀ q r :=
  ⟨rfl, Schedule.fair_behindAnother,
    Send.all_or_nothing "A".toList none rfl Schedule.fair_behindAnother⟩

end PadScript
