import PadScript.Pad.ActionLine

/-!
# What an action line means

An action line is read piece by piece, with the token before in mind. This file says what comes of
it without the order of reading: the buttons are those of all tokens, a stick is where its last token
puts it, and the directions are those behind the last one that follows itself.

* `PadToken.Means` : the meaning of a list of tokens.
* `PadToken.means_applyAll` : **reading tokens one by one gives their meaning.**
* `PadToken.applyAll_congr_previous` : the token before counts only where a direction follows it.
* `PadState.ofLine_means` : the meaning of a line, of a line without one of its pieces, and of two
  lines that are joined.
-/

namespace PadScript

/-! ### Unions -/

/-- The buttons of all sets. -/
def Buttons.unionOf (sets : List Buttons) : Buttons := sets.foldr union none

/-- The directions of all sets. -/
def Dpad.unionOf (sets : List Dpad) : Dpad := sets.foldr union center

theorem Buttons.union_none (s : Buttons) : s.union none = s := by
  simp [union, none]

theorem Buttons.none_union (s : Buttons) : none.union s = s := by
  simp [union, none]

theorem Buttons.union_assoc (s t u : Buttons) : (s.union t).union u = s.union (t.union u) := by
  simp [union, UInt16.or_assoc]

theorem Dpad.union_center (s : Dpad) : s.union center = s := by
  simp [union, center]

theorem Dpad.center_union (s : Dpad) : center.union s = s := by
  simp [union, center]

theorem Dpad.union_assoc (s t u : Dpad) : (s.union t).union u = s.union (t.union u) := by
  simp [union, UInt8.or_assoc]

namespace PadToken

/-! ### The tokens of a kind -/

/-- The button that a token presses. -/
def button? : Option PadToken → Option Buttons
  | some (.button b) => some b
  | _ => none

/-- The direction that a token names. -/
def direction? : Option PadToken → Option Dpad
  | some (.direction d) => some d
  | _ => none

/-- Where a token puts the left stick. -/
def leftStick? : Option PadToken → Option Stick
  | some (.leftStick s) => some s
  | _ => none

/-- Where a token puts the right stick. -/
def rightStick? : Option PadToken → Option Stick
  | some (.rightStick s) => some s
  | _ => none

/-- A direction follows itself somewhere. -/
def Repeats (ts : List (Option PadToken)) : Prop :=
  ∃ front d behind, ts = front ++ some (.direction d) :: some (.direction d) :: behind

/-- The tokens `us` stand behind the last direction that follows itself, or are all tokens if there
is none. -/
def Counts (ts us : List (Option PadToken)) : Prop :=
  (us = ts ∧ ¬Repeats ts) ∨
    ∃ front d, ts = front ++ some (.direction d) :: some (.direction d) :: us ∧
      ¬Repeats (some (.direction d) :: us)

/-- The meaning of a list of tokens. -/
structure Means (ts : List (Option PadToken)) (s : PadState) : Prop where
  /-- The buttons are those of all tokens. -/
  buttons : s.buttons = .unionOf (ts.filterMap button?)
  /-- The left stick is where its last token puts it. -/
  leftStick : s.leftStick = (ts.filterMap leftStick?).getLastD .neutral
  /-- So is the right stick. -/
  rightStick : s.rightStick = (ts.filterMap rightStick?).getLastD .neutral
  /-- The directions are those that count. -/
  dpad : ∃ us, Counts ts us ∧ s.dpad = .unionOf (us.filterMap direction?)

variable {previous : Option PadToken} {s : PadState} {ts us : List (Option PadToken)}

theorem repeats_cons_iff {t : Option PadToken} :
    Repeats (t :: ts) ↔
      (∃ d behind, t = some (.direction d) ∧ ts = some (.direction d) :: behind) ∨ Repeats ts := by
  constructor
  · rintro ⟨front, d, behind, h⟩
    cases front with
    | nil =>
      obtain ⟨rfl, rfl⟩ := List.cons.inj h
      exact .inl ⟨d, behind, rfl, rfl⟩
    | cons u front =>
      obtain ⟨rfl, rfl⟩ := List.cons.inj h
      exact .inr ⟨front, d, behind, rfl⟩
  · rintro (⟨d, behind, rfl, rfl⟩ | ⟨front, d, behind, rfl⟩)
    · exact ⟨[], d, behind, rfl⟩
    · exact ⟨t :: front, d, behind, rfl⟩

/-- In every list some tokens count. -/
theorem exists_counts (ts : List (Option PadToken)) : ∃ us, Counts ts us := by
  induction ts with
  | nil => exact ⟨[], .inl ⟨rfl, by rintro ⟨front, d, behind, h⟩; simp at h⟩⟩
  | cons t ts ih =>
    obtain ⟨us, ⟨rfl, hnot⟩ | ⟨front, d, rfl, hnot⟩⟩ := ih
    · by_cases hrepeats : Repeats (t :: us)
      · rcases repeats_cons_iff.1 hrepeats with ⟨d, behind, rfl, rfl⟩ | hrest
        · exact ⟨behind, .inr ⟨[], d, rfl, hnot⟩⟩
        · exact absurd hrest hnot
      · exact ⟨t :: us, .inl ⟨rfl, hrepeats⟩⟩
    · exact ⟨us, .inr ⟨t :: front, d, rfl, hnot⟩⟩

/-- No more can count than what stands behind the last direction that follows itself. -/
theorem append_inj_of_not_repeats {front front' : List (Option PadToken)} {d d' : Dpad}
    {us us' : List (Option PadToken)} (hnot : ¬Repeats (some (.direction d) :: us))
    (h : front ++ some (.direction d) :: some (.direction d) :: us =
      front' ++ some (.direction d') :: some (.direction d') :: us')
    (hlonger : ∃ more, front' = front ++ more) : us = us' := by
  obtain ⟨more, rfl⟩ := hlonger
  rw [List.append_assoc, List.append_cancel_left_eq] at h
  cases more with
  | nil => simp_all
  | cons t more => exact absurd ⟨more, d', us', (List.cons.inj h).2⟩ hnot

/-- There is one list of tokens that count. -/
theorem Counts.unique {us' : List (Option PadToken)} (h : Counts ts us) (h' : Counts ts us') :
    us = us' := by
  rcases h with ⟨rfl, hnot⟩ | ⟨front, d, hfront, hnot⟩ <;>
    rcases h' with ⟨rfl, hnot'⟩ | ⟨front', d', hfront', hnot'⟩
  · rfl
  · exact absurd ⟨front', d', us', hfront'⟩ hnot
  · exact absurd ⟨front, d, us, hfront⟩ hnot'
  · have hsame := hfront.symm.trans hfront'
    rcases List.append_eq_append_iff.1 hsame with ⟨more, hmore, -⟩ | ⟨more, hmore, -⟩
    · exact append_inj_of_not_repeats hnot hsame ⟨more, hmore⟩
    · exact (append_inj_of_not_repeats hnot' hsame.symm ⟨more, hmore⟩).symm

/-- Tokens mean one state. -/
theorem Means.unique {s' : PadState} (h : Means ts s) (h' : Means ts s') : s = s' := by
  obtain ⟨us, hus, hdpad⟩ := h.dpad
  obtain ⟨us', hus', hdpad'⟩ := h'.dpad
  rw [hus.unique hus'] at hdpad
  have hbuttons := h.buttons.trans h'.buttons.symm
  have hleft := h.leftStick.trans h'.leftStick.symm
  have hright := h.rightStick.trans h'.rightStick.symm
  exact (PadState.mk.injEq ..).mpr ⟨hbuttons, hdpad.trans hdpad'.symm, hleft, hright⟩

/-! ### Reading tokens one by one -/

theorem applyAll_append (previous : Option PadToken) (s : PadState)
    (ts us : List (Option PadToken)) :
    applyAll previous s (ts ++ us) = applyAll (ts.getLastD previous) (applyAll previous s ts) us := by
  induction ts generalizing previous s with
  | nil => rfl
  | cons t ts ih =>
    rw [List.getLastD_cons]
    cases t with
    | none => exact ih none s
    | some t => exact ih (some t) (t.apply previous s)

theorem buttons_applyAll (previous : Option PadToken) (s : PadState)
    (ts : List (Option PadToken)) :
    (applyAll previous s ts).buttons = s.buttons.union (.unionOf (ts.filterMap button?)) := by
  induction ts generalizing previous s with
  | nil => exact (Buttons.union_none _).symm
  | cons t ts ih =>
    cases t with
    | none => exact ih none s
    | some t =>
      rw [applyAll, ih]
      cases t with
      | button b => exact Buttons.union_assoc s.buttons b _
      | direction d =>
        simp only [apply]
        split <;> rfl
      | leftStick stick | rightStick stick => rfl

/-- What every token of a kind sets anew is what the last of them sets. -/
theorem last_applyAll {α : Type} {get : PadState → α} {pick : Option PadToken → Option α}
    (hnone : pick none = none)
    (hsome : ∀ previous s t, get (apply previous s t) = (pick (some t)).getD (get s))
    (previous : Option PadToken) (s : PadState) (ts : List (Option PadToken)) :
    get (applyAll previous s ts) = (ts.filterMap pick).getLastD (get s) := by
  induction ts generalizing previous s with
  | nil => rfl
  | cons t ts ih =>
    cases t with
    | none =>
      rw [List.filterMap_cons_none hnone]
      exact ih none s
    | some t =>
      rw [applyAll, ih, hsome]
      cases hpick : pick (some t) with
      | none => rw [List.filterMap_cons_none hpick, Option.getD_none]
      | some x => rw [List.filterMap_cons_some hpick, List.getLastD_cons, Option.getD_some]

theorem leftStick_apply (previous : Option PadToken) (s : PadState) (t : PadToken) :
    (apply previous s t).leftStick = (leftStick? (some t)).getD s.leftStick := by
  cases t with
  | direction d =>
    simp only [apply]
    split <;> rfl
  | button b | leftStick stick | rightStick stick => rfl

theorem rightStick_apply (previous : Option PadToken) (s : PadState) (t : PadToken) :
    (apply previous s t).rightStick = (rightStick? (some t)).getD s.rightStick := by
  cases t with
  | direction d =>
    simp only [apply]
    split <;> rfl
  | button b | leftStick stick | rightStick stick => rfl

/-- Where no direction follows itself, all directions are held. -/
theorem dpad_applyAll (h : ¬Repeats (previous :: ts)) :
    (applyAll previous s ts).dpad = s.dpad.union (.unionOf (ts.filterMap direction?)) := by
  induction ts generalizing previous s with
  | nil => exact (Dpad.union_center _).symm
  | cons t ts ih =>
    have hrest : ¬Repeats (t :: ts) := fun hrest => h (repeats_cons_iff.2 (.inr hrest))
    cases t with
    | none => exact ih hrest
    | some t =>
      rw [applyAll, ih hrest]
      cases t with
      | direction d =>
        have hnew : previous ≠ some (.direction d) := fun hsame =>
          h (repeats_cons_iff.2 (.inl ⟨d, ts, hsame, rfl⟩))
        simp only [apply, if_neg hnew]
        exact Dpad.union_assoc s.dpad d _
      | button b | leftStick stick | rightStick stick => rfl

/-- The directions that are held are those that count. -/
theorem dpad_of_counts (h : Counts ts us) :
    (applyAll none .neutral ts).dpad = .unionOf (us.filterMap direction?) := by
  rcases h with ⟨rfl, hnot⟩ | ⟨front, d, rfl, hnot⟩
  · have hfirst : ¬Repeats (none :: us) := by
      rw [repeats_cons_iff]
      rintro (⟨d, behind, h, -⟩ | h)
      · cases h
      · exact hnot h
    rw [dpad_applyAll hfirst]
    exact Dpad.center_union _
  · -- the second of the two lets the cross go
    rw [List.append_cons, applyAll_append, List.getLastD_concat, applyAll, dpad_applyAll hnot]
    simp only [apply, if_true]
    exact Dpad.center_union _

/-- **Reading tokens one by one gives their meaning.** -/
theorem means_applyAll (ts : List (Option PadToken)) : Means ts (applyAll none .neutral ts) := by
  obtain ⟨us, hus⟩ := exists_counts ts
  refine ⟨?_, last_applyAll rfl leftStick_apply none .neutral ts,
    last_applyAll rfl rightStick_apply none .neutral ts, us, hus, dpad_of_counts hus⟩
  rw [buttons_applyAll]
  exact Buttons.none_union _

/-- **The token before counts only where a direction follows it.** -/
theorem applyAll_congr_previous
    (h : ∀ d, previous = some (.direction d) → ts.head? ≠ some (some (.direction d))) :
    applyAll previous s ts = applyAll none s ts := by
  cases ts with
  | nil => rfl
  | cons t ts =>
    cases t with
    | none => rfl
    | some t =>
      cases t with
      | direction d =>
        have hnew : previous ≠ some (.direction d) := fun hsame => h d hsame rfl
        simp [applyAll, apply, hnew]
      | button b | leftStick stick | rightStick stick => rfl

/-- A piece that is no token changes the directions at most. -/
theorem applyAll_without (ts us : List (Option PadToken)) :
    { applyAll none .neutral (ts ++ none :: us) with
      dpad := (applyAll none .neutral (ts ++ us)).dpad } = applyAll none .neutral (ts ++ us) := by
  have hwith := means_applyAll (ts ++ none :: us)
  have hwithout := means_applyAll (ts ++ us)
  have hpick : ∀ {α : Type} {pick : Option PadToken → Option α}, pick none = none →
      (ts ++ none :: us).filterMap pick = (ts ++ us).filterMap pick := by
    intro α pick hnone
    rw [List.filterMap_append, List.filterMap_cons_none hnone, List.filterMap_append]
  rw [PadState.mk.injEq]
  refine ⟨?_, rfl, ?_, ?_⟩
  · rw [hwith.buttons, hwithout.buttons, hpick rfl]
  · rw [hwith.leftStick, hwithout.leftStick, hpick rfl]
  · rw [hwith.rightStick, hwithout.rightStick, hpick rfl]

/-! ### Lines -/

/-- The tokens of a line; a piece that is none is `none`. -/
def ofLine (line : Text) : List (Option PadToken) := (Text.pieces '|' line).map parse?

/-- One and the same direction stands at both sides. -/
def Parts (front behind : List Text) : Prop :=
  ∃ d, front.getLast?.bind parse? = some (.direction d) ∧
    behind.head?.bind parse? = some (.direction d)

/-- A bar joins the tokens of two lines. -/
theorem ofLine_append_bar (line more : Text) :
    ofLine (line ++ '|' :: more) = ofLine line ++ ofLine more := by
  rw [ofLine, Text.pieces_append_cons, List.map_append]
  rfl

/-- **A piece that is no token changes nothing, unless it parts two equal directions.** -/
theorem applyAll_map_without {front behind : List Text} (h : ¬Parts front behind) :
    applyAll none .neutral (front.map parse? ++ none :: behind.map parse?) =
      applyAll none .neutral (front.map parse? ++ behind.map parse?) := by
  rw [applyAll_append, applyAll_append, applyAll]
  refine (applyAll_congr_previous fun d hlast hhead => h ⟨d, ?_, ?_⟩).symm
  · rw [List.getLastD_eq_getLast?, List.getLast?_map] at hlast
    cases hfront : front.getLast? with
    | none => simp [hfront] at hlast
    | some p => simpa [hfront] using hlast
  · rw [List.head?_map] at hhead
    cases hbehind : behind.head? with
    | none => simp [hbehind] at hhead
    | some p => simpa [hbehind] using hhead

end PadToken

namespace PadState

open PadToken

/-- A line, piece by piece. -/
def ofPieces (pieces : List Text) : PadState := ofLine (['|'].intercalate pieces)

/-- Pieces without bars are read as they are. -/
theorem ofPieces_eq {pieces : List Text} (h : ∀ p ∈ pieces, '|' ∉ p) :
    ofPieces pieces = applyAll none .neutral (pieces.map parse?) := by
  cases pieces with
  | nil => decide
  | cons p rest => rw [ofPieces, ofLine, Text.pieces_intercalate (List.cons_ne_nil p rest) h]

/-- The later of two lines is read with the last token of the first in mind. -/
theorem ofLine_append_bar (line more : Text) :
    ofLine (line ++ '|' :: more) =
      applyAll ((PadToken.ofLine line).getLastD none) (ofLine line) (PadToken.ofLine more) := by
  change applyAll none .neutral (PadToken.ofLine (line ++ '|' :: more)) = _
  rw [PadToken.ofLine_append_bar, applyAll_append]
  rfl

/-- **What an action line means.** It holds what its tokens mean. A piece that is no token changes
nothing in a line, except that it can part two equal directions. Of two lines that are joined the
buttons are united, and the sticks are those of the later line if it moves them. -/
theorem ofLine_means :
    (∀ line s, Means (PadToken.ofLine line) s ↔ s = ofLine line) ∧
    (∀ front piece behind, (∀ p ∈ front ++ piece :: behind, '|' ∉ p) → parse? piece = none →
      { ofPieces (front ++ piece :: behind) with dpad := (ofPieces (front ++ behind)).dpad } =
          ofPieces (front ++ behind) ∧
        (¬Parts front behind →
          ofPieces (front ++ piece :: behind) = ofPieces (front ++ behind))) ∧
    ∀ line more,
      (ofLine (line ++ '|' :: more)).buttons = (ofLine line).buttons.union (ofLine more).buttons ∧
      (ofLine (line ++ '|' :: more)).leftStick =
        ((PadToken.ofLine more).filterMap leftStick?).getLastD (ofLine line).leftStick ∧
      (ofLine (line ++ '|' :: more)).rightStick =
        ((PadToken.ofLine more).filterMap rightStick?).getLastD (ofLine line).rightStick := by
  refine ⟨fun line s => ?_, fun front piece behind hbars hpiece => ?_, fun line more => ?_⟩
  · have hline : Means (PadToken.ofLine line) (ofLine line) := means_applyAll _
    exact ⟨fun h => h.unique hline, fun h => h ▸ hline⟩
  · have hrest : ∀ p ∈ front ++ behind, '|' ∉ p := fun p hp => hbars p (by
      rcases List.mem_append.1 hp with hp | hp
      · exact List.mem_append_left _ hp
      · exact List.mem_append_right _ (List.mem_cons_of_mem _ hp))
    rw [ofPieces_eq hbars, ofPieces_eq hrest, List.map_append, List.map_append, List.map_cons,
      hpiece]
    exact ⟨applyAll_without _ _, applyAll_map_without⟩
  · have hmore : (ofLine more).buttons = .unionOf ((PadToken.ofLine more).filterMap button?) :=
      (means_applyAll _).buttons
    rw [ofLine_append_bar, hmore]
    exact ⟨buttons_applyAll _ _ _, last_applyAll rfl leftStick_apply _ _ _,
      last_applyAll rfl rightStick_apply _ _ _⟩

end PadState

end PadScript
