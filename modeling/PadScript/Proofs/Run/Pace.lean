import PadScript.Proofs.Run.Company
import PadScript.Proofs.Run.Trace

/-!
# The pace of a run

Whatever the other tasks do, the sends of a run are at least the interval of the pacer apart. A send
that has not taken effect waits for a time, and that time is late enough (`Send.Awaits`).

* `Send.step_awaits` : a send takes effect late enough.
* `Execution.Trace.paced` : **the sends of a run are kept apart.**
-/

namespace PadScript

namespace Send

/-- The send does not take effect before a time. -/
def Awaits (bound now : Nat) (x : Send) : Prop :=
  match x.phase with
  | .asking => True
  | .pacing deadline => bound ≤ deadline
  | .writing _ => bound ≤ now

theorem Awaits.of_le {bound now later : Nat} {x : Send} (h : x.Awaits bound now)
    (hlater : now ≤ later) : x.Awaits bound later := by
  unfold Awaits at h ⊢
  split at h
  · trivial
  · exact h
  · exact Nat.le_trans h hlater

/-- What the result of a wait says about a time. -/
def WaitedFor (bound now : Nat) : Wait → Prop
  | .over => bound ≤ now
  | .cancelled => True
  | .sleeping deadline => bound ≤ deadline

/-- A send that goes on does not take effect before a time, and one that takes effect does not
either. -/
def TakesEffectBy (bound now : Nat) : Turn Pad Send (Except RunError Nat) → Prop
  | .wait _ x _ => x.Awaits bound now
  | .go _ x => x.Awaits bound now
  | .done _ (.ok _) => bound ≤ now
  | .done _ (.error _) => True

variable {bound now : Nat} {isCancelled : Bool}

theorem TakesEffectBy.of_left {turn : Turn Pad Send (Except RunError Nat)} {p : Pad} {x : Send}
    (h : TakesEffectBy bound now turn) (hleft : turn.left? = some (p, x)) :
    x.Awaits bound now := by
  rcases Turn.eq_of_left hleft with ⟨again, rfl⟩ | rfl
  · exact h
  · exact h

theorem waitedFor_begin {deadline? : Option Nat} (h : ∀ t, deadline? = some t → bound ≤ t)
    (hsome : deadline? ≠ none) : WaitedFor bound now (.begin now isCancelled deadline?) := by
  cases deadline? with
  | none => exact absurd rfl hsome
  | some t =>
    have ht := h t rfl
    simp only [Wait.begin]
    split
    · trivial
    · split
      next hover => exact Nat.le_trans ht hover
      next => exact ht

theorem waitedFor_look {deadline : Nat} (h : bound ≤ deadline) :
    WaitedFor bound now (.look now isCancelled deadline) := by
  unfold Wait.look
  split
  next hover => exact Nat.le_trans h hover
  next =>
    split
    · trivial
    · exact h

theorem proceed_takesEffectBy (x : Send) (p : Pad) {wait : Wait} (h : WaitedFor bound now wait) :
    TakesEffectBy bound now (x.proceed now p wait) := by
  unfold proceed
  cases wait with
  | «over» => cases p.profile <;> exact h
  | cancelled => cases p.profile <;> trivial
  | sleeping deadline => exact h

/-- The pacer keeps a send apart from every earlier one. -/
theorem le_deadline {pacer : Pacer} {last : Nat} (notBefore : Option Nat)
    (hlast : pacer.last? = some last) :
    pacer.deadline? notBefore ≠ none ∧
      ∀ t, pacer.deadline? notBefore = some t → last + pacer.interval ≤ t := by
  unfold Pacer.deadline?
  rw [hlast]
  cases notBefore with
  | none => simp
  | some t =>
    refine ⟨by simp, fun u hu => ?_⟩
    obtain rfl := Option.some.inj hu
    exact Nat.le_max_left _ t

/-- **A send takes effect late enough**: an interval after an earlier one that the pacer has not
forgotten. -/
theorem step_awaits (x : Send) (p : Pad) {t last : Nat} (hlast : p.pacer.last? = some last)
    (ht : t ≤ last) (h : x.Awaits (t + p.pacer.interval) now) :
    TakesEffectBy (t + p.pacer.interval) now (x.step now isCancelled p) := by
  obtain ⟨hsome, hdeadline⟩ := le_deadline x.notBefore hlast
  have hbegin : WaitedFor (t + p.pacer.interval) now
      (.begin now isCancelled (p.pacer.deadline? x.notBefore)) :=
    waitedFor_begin (fun u hu => Nat.le_trans (Nat.add_le_add_right ht _) (hdeadline u hu)) hsome
  unfold Awaits at h
  unfold step
  cases hphase : x.phase with
  | asking =>
    simp only
    cases p.profile with
    | horipadS =>
      simp only
      split
      · simp [TakesEffectBy, Awaits, hphase]
      · exact proceed_takesEffectBy x _ hbegin
    | proController => exact proceed_takesEffectBy x p hbegin
  | pacing deadline =>
    rw [hphase] at h
    simp only
    split
    · simpa [TakesEffectBy, Awaits, hphase] using h
    · exact proceed_takesEffectBy x p (waitedFor_look h)
  | writing w =>
    rw [hphase] at h
    simp only
    cases w.step now p.sink with
    | wait sink w again => exact h
    | go sink w => exact h
    | done sink result =>
      cases result with
      | ok _ => exact h
      | error e => trivial

end Send

namespace Execution

/-- The times of the sends. -/
def sentTimes (events : List Event) : List Nat := events.filterMap Event.sentAt?

/-- The sends so far, and those that the run makes next, are kept apart. -/
structure Paced (interval : Nat) (events : List Event) (e : Execution) (s : Station) : Prop where
  /-- The pacer keeps sends this far apart. -/
  interval_eq : s.pad.pacer.interval = interval
  /-- The sends so far are. -/
  spaced : (sentTimes events).Pairwise fun t u => t + interval ≤ u
  /-- They have been. -/
  past : ∀ t ∈ sentTimes events, t ≤ s.now
  /-- The pacer has not forgotten them. -/
  kept : ∀ t ∈ sentTimes events, ∃ last, s.pad.pacer.last? = some last ∧ t ≤ last
  /-- The next one is late enough. -/
  awaits : ∀ t ∈ sentTimes events, ∀ a x, e.phase = .acting a → a.send? = some x →
    x.Awaits (t + interval) s.now

variable {interval : Nat} {events : List Event} {e e' : Execution} {s s' : Station}

/-- The company of a run does not harm its pace. -/
theorem Paced.of_passes (h : Paced interval events e s) (hpasses : s.Passes s') :
    Paced interval events e s' where
  interval_eq := hpasses.interval.trans h.interval_eq
  spaced := h.spaced
  past t ht := Nat.le_trans (h.past t ht) hpasses.now_le
  kept t ht := by
    rcases hpasses.last with hsame | ⟨u, hu, hfrom, -⟩
    · rw [hsame]
      exact h.kept t ht
    · exact ⟨u, hu, Nat.le_trans (h.past t ht) hfrom⟩
  awaits t ht a x hphase hsend := (h.awaits t ht a x hphase hsend).of_le hpasses.now_le

/-- A step that shows no send, and after which no send has got on. -/
theorem Paced.of_quiet {shown : List Event} (h : Paced interval events e s)
    (hpasses : s.Passes s') (hshown : sentTimes shown = [])
    (hfresh : ∀ a x, e'.phase = .acting a → a.send? = some x → x.phase = .asking) :
    Paced interval (events ++ shown) e' s' := by
  have hpaced := h.of_passes hpasses
  have htimes : sentTimes (events ++ shown) = sentTimes events := by
    rw [sentTimes, List.filterMap_append, ← sentTimes, ← sentTimes, hshown, List.append_nil]
  refine ⟨hpaced.interval_eq, by rw [htimes]; exact h.spaced, by rw [htimes]; exact hpaced.past,
    by rw [htimes]; exact hpaced.kept, fun t _ a x hphase hsend => ?_⟩
  simp [Send.Awaits, hfresh a x hphase hsend]

/-- The send that the run makes takes effect late enough. -/
theorem Paced.takesEffectBy (h : Paced interval events e s) {a : Action} {x : Send}
    (hphase : e.phase = .acting a) (hsend : a.send? = some x) {t : Nat}
    (ht : t ∈ sentTimes events) :
    Send.TakesEffectBy (t + interval) s.now (x.step s.now s.queue.cancelled s.pad) := by
  obtain ⟨last, hlast, htlast⟩ := h.kept t ht
  have hawaits := h.awaits t ht a x hphase hsend
  rw [← h.interval_eq] at hawaits ⊢
  exact x.step_awaits s.pad hlast htlast hawaits

section Acting

variable {a : Action} (hphase : e.phase = .acting a)
  (hleft : ∀ a', e'.phase = .acting a' → a'.send? ≠ none →
    (a.step s.now s.queue.cancelled s.pad).left? =
      some ((a.step s.now s.queue.cancelled s.pad).world, a'))

include hphase hleft

/-- A step of the action that is played keeps the pace of the sends before it. -/
theorem Paced.of_acting (h : Paced interval events e s) :
    Paced interval events e'
      { s with pad := (a.step s.now s.queue.cancelled s.pad).world } := by
  have hpaced := h.of_passes (.ofNext (a.next_world s.now s.queue.cancelled s.pad))
  refine ⟨hpaced.interval_eq, h.spaced, hpaced.past, hpaced.kept, ?_⟩
  intro t ht a' x' hphase' hsend'
  rcases Action.send_of_left (hleft a' hphase' (by simp [hsend'])) hsend' with
    hasking | ⟨x, hsend, hstep⟩
  · simp [Send.Awaits, hasking]
  · exact (h.takesEffectBy hphase hsend ht).of_left hstep

/-- A step of the action that is played, if a send takes effect: that is an interval after every
earlier one, and the pacer records it. -/
theorem Paced.of_acting_sent (h : Paced interval events e s) {event : Event}
    (hshows : a.shows s.now s.queue.cancelled s.pad = some event) :
    Paced interval (events ++ [event]) e'
      { s with pad := (a.step s.now s.queue.cancelled s.pad).world } := by
  obtain ⟨x, p, hsend, rfl, hdone, hlast⟩ := Action.shows_eq_some hshows
  have hpaced := h.of_passes (.ofNext (a.next_world s.now s.queue.cancelled s.pad))
  have htimes : sentTimes (events ++ [.sent x.line s.now]) = sentTimes events ++ [s.now] := by
    simp [sentTimes, Event.sentAt?]
  have hpast : ∀ t ∈ sentTimes events ++ [s.now], t ≤ s.now := by
    intro t ht
    rcases List.mem_append.1 ht with ht | ht
    · exact h.past t ht
    · exact Nat.le_of_eq (List.mem_singleton.1 ht)
  refine ⟨hpaced.interval_eq, ?_, by rw [htimes]; exact hpast, ?_, ?_⟩
  · rw [htimes, List.pairwise_append]
    refine ⟨h.spaced, List.pairwise_singleton .., fun t ht u hu => ?_⟩
    obtain rfl := List.mem_singleton.1 hu
    have htakes := h.takesEffectBy hphase hsend ht
    rw [hdone] at htakes
    exact htakes
  · rw [htimes]
    exact fun t ht => ⟨s.now, hlast, hpast t ht⟩
  · intro t _ a' x' hphase' hsend'
    rcases Action.send_of_left (hleft a' hphase' (by simp [hsend'])) hsend' with
      hasking | ⟨x'', hsend'', hstep⟩
    · simp [Send.Awaits, hasking]
    · -- the send is over, so it has not gone on
      obtain rfl := Option.some.inj (hsend.symm.trans hsend'')
      simp [hdone, Turn.left?] at hstep

end Acting

theorem Paced.of_shows {a : Action} (h : Paced interval events e s) (hphase : e.phase = .acting a)
    (hleft : ∀ a', e'.phase = .acting a' → a'.send? ≠ none →
      (a.step s.now s.queue.cancelled s.pad).left? =
        some ((a.step s.now s.queue.cancelled s.pad).world, a')) :
    Paced interval (events ++ (a.shows s.now s.queue.cancelled s.pad).toList) e'
      { s with pad := (a.step s.now s.queue.cancelled s.pad).world } := by
  cases hshows : a.shows s.now s.queue.cancelled s.pad with
  | none =>
    rw [Option.toList_none, List.append_nil]
    exact h.of_acting hphase hleft
  | some event => exact h.of_acting_sent hphase hleft hshows

/-- A step of the run keeps the pace. -/
theorem Paced.step (h : Paced interval events e s) (hleft : (e.step s).left? = some (s', e')) :
    Paced interval (events ++ (e.shows s).toList) e' s' := by
  have hadvance := advance_of_left hleft
  generalize e.shows s = shown at hadvance
  cases hadvance with
  | cancel _ _ => exact h.of_quiet (.refl s) rfl fun a x hphase => by simp [release] at hphase
  | line _ _ _ =>
    refine h.of_quiet (.refl s) rfl fun a x hphase hsend => ?_
    obtain rfl := ExecutionPhase.acting.inj hphase
    simp [Action.send?, Action.ofLine] at hsend
  | finish _ _ _ _ => exact h.of_quiet (.refl s) rfl fun a x hphase => by simp [release] at hphase
  | again hchoosing _ _ _ _ =>
    exact h.of_quiet (.refl s) rfl fun a x hphase => by simp [hchoosing] at hphase
  | @act a a' p hphase hgone =>
    have hworld : p = (a.step s.now s.queue.cancelled s.pad).world := Turn.world_of_left hgone
    subst hworld
    refine h.of_shows hphase fun a'' hphase' _ => ?_
    obtain rfl := ExecutionPhase.acting.inj hphase'
    exact hgone
  | @played a p hphase hdone =>
    have hworld : p = (a.step s.now s.queue.cancelled s.pad).world := by rw [hdone]; rfl
    subst hworld
    exact h.of_shows hphase fun a' hphase' => by simp at hphase'
  | @fail a p error hphase hdone =>
    have hworld : p = (a.step s.now s.queue.cancelled s.pad).world := by rw [hdone]; rfl
    subst hworld
    exact h.of_shows hphase fun a' hphase' => by simp [Execution.release] at hphase'
  | @release x x' result p _ hgone =>
    have hworld : p = (x.step s.now false s.pad).world := Turn.world_of_left hgone
    subst hworld
    exact h.of_quiet (.ofNext (x.next_world s.now false s.pad)) rfl fun a x hphase => by
      simp at hphase

/-- **The sends of a run are kept apart**, whatever its company does. -/
theorem Trace.paced {e₀ : Execution} {s₀ : Station} (h : Trace Station.Passes e₀ s₀ events e s) :
    Paced s₀.pad.pacer.interval events e s := by
  induction h with
  | start => exact ⟨rfl, .nil, by simp [sentTimes], by simp [sentTimes], by simp [sentTimes]⟩
  | step _ hleft ih => exact ih.step hleft
  | others _ hpasses ih => exact ih.of_passes hpasses

end Execution

end PadScript
