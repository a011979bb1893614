import PadScript.Proofs.Library.Clean
import PadScript.Proofs.Cursor.Rewind

/-!
# Remarks

A comment of a script file is called a remark here: a row that begins with two hyphens or with `#`.
It is dropped before anything else is done with the row. Only then the spaces and tabs are taken out
of the rows that are left, and blocks are cut out of them. So a line can be stored that looks like a
remark, and this file says from which rows: they are no remarks as they are written.

* `Row.areApart_of_clean?` : taking out spaces and tabs can bring two hyphens together.
* `Cursor.Traced.exists_track_of_nextLine` : a line that a cursor gives is one of a track that its
  library holds.
* `Library.load_remarks` : **what is loaded does not depend on the remarks, and a line that looks
  like one, stored or given by a cursor, comes from a row that is none.**
-/

namespace PadScript

/-! ### Rows that are remarks -/

namespace Row

/-- The row, without blanks around it, is a comment: it begins with two hyphens or with `#`. -/
def IsRemark (row : Text) : Prop := "--".toList <+: row ∨ "#".toList <+: row

instance (row : Text) : Decidable (IsRemark row) := inferInstanceAs (Decidable (_ ∨ _))

/-- Two hyphens at the beginning of a row stand apart, with spaces or tabs between them. -/
def AreApart (written : Text) : Prop :=
  ∃ gap more : Text, Text.trim written = '-' :: (gap ++ '-' :: more) ∧ gap ≠ [] ∧
    ∀ c ∈ gap, c = ' ' ∨ c = '\t'

variable {written row : Text}

theorem clean?_eq (written : Text) :
    clean? written =
      if Text.trim written = [] ∨ IsRemark (Text.trim written) then none
      else some ((Text.trim written).filter fun c => c != ' ' && c != '\t') := by
  simp only [clean?, Bool.or_eq_true, List.isEmpty_iff, List.isPrefixOf_iff_prefix, or_assoc]
  exact ite_congr rfl (fun _ => rfl) fun _ => rfl

theorem clean?_of_isRemark (h : IsRemark (Text.trim written)) : clean? written = none := by
  rw [clean?_eq, if_pos (.inr h)]

theorem not_isRemark_of_clean? (h : clean? written = some row) :
    ¬ IsRemark (Text.trim written) ∧
      row = (Text.trim written).filter fun c => c != ' ' && c != '\t' := by
  rw [clean?_eq] at h
  split at h
  · cases h
  next hkept => exact ⟨fun hremark => hkept (.inr hremark), (Option.some.inj h).symm⟩

/-- A trimmed text does not begin with a blank. -/
theorem not_isBlank_of_trim {c : Char} {rest : Text} (h : Text.trim written = c :: rest) :
    Text.isBlank c = false := by
  have hfront : Text.trim written <+: written.dropWhile Text.isBlank := by
    rw [Text.trim, ← List.reverse_suffix, List.reverse_reverse]
    exact List.dropWhile_suffix _
  obtain ⟨more, hmore⟩ := hfront
  have hhead := List.head?_dropWhile_not Text.isBlank written
  rw [h] at hmore
  simpa [← hmore] using hhead

theorem eq_space_or_tab {c : Char} (h : ¬ (c != ' ' && c != '\t') = true) :
    c = ' ' ∨ c = '\t' := by
  simpa [Decidable.or_iff_not_imp_left] using h

/-- **Only hyphens that stand apart become a remark.** -/
theorem areApart_of_clean? (h : clean? written = some row) (hremark : IsRemark row) :
    AreApart written := by
  obtain ⟨hno, hrow⟩ := not_isRemark_of_clean? h
  cases htrim : Text.trim written with
  | nil => simp [hrow, htrim, IsRemark] at hremark
  | cons c rest =>
    have hkept : (c != ' ' && c != '\t') = true := by
      have hblank := not_isBlank_of_trim htrim
      rw [Bool.and_eq_true, bne_iff_ne, bne_iff_ne]
      refine ⟨?_, ?_⟩ <;> (rintro rfl; cases hblank)
    rw [htrim, List.filter_cons, if_pos hkept] at hrow
    rcases hremark with ⟨more, hmore⟩ | ⟨more, hmore⟩
    · -- the second hyphen is the first sign behind the gap
      obtain ⟨rfl, hsecond⟩ := List.cons.inj (hmore.trans hrow)
      obtain ⟨gap, after, rfl, hgap, -, -⟩ := List.filter_eq_cons_iff.1 hsecond.symm
      refine ⟨gap, after, htrim, ?_, fun d hd => eq_space_or_tab (hgap d hd)⟩
      rintro rfl
      exact hno (.inl ⟨after, by rw [htrim]; rfl⟩)
    · obtain ⟨rfl, -⟩ := List.cons.inj (hmore.trans hrow)
      exact absurd (.inr ⟨rest, by rw [htrim]; rfl⟩) hno

end Row

/-! ### Lines that look like remarks -/

namespace ScriptFile

/-- What a file holds but for comments: its path and the other rows. -/
def unremarked (f : ScriptFile) : Text × List Text :=
  (f.path, (Text.rows f.text).filter fun row => ¬ Row.IsRemark (Text.trim row))

/-- A row of the file that is no remark holds the line: behind opening braces, or at its beginning,
and then with two hyphens that stand apart. -/
def Hides (f : ScriptFile) (line : Text) : Prop :=
  ∃ written ∈ Text.rows f.text, ¬ Row.IsRemark (Text.trim written) ∧
    ∃ row k rest, Row.clean? written = some row ∧ row = List.replicate k '{' ++ (line ++ rest) ∧
      (k = 0 → Row.AreApart written)

theorem cleanRows_eq (f : ScriptFile) : f.cleanRows = f.unremarked.2.filterMap Row.clean? := by
  rw [cleanRows, unremarked, List.filterMap_filter]
  congr 1
  funext row
  by_cases hremark : Row.IsRemark (Text.trim row)
  · simp [hremark, Row.clean?_of_isRemark hremark]
  · simp [hremark]

/-- **A line that looks like a remark comes from a row that is none.** -/
theorem hides_of_mem_visits {f : ScriptFile} {counter : Nat} {v : Visit}
    (hv : v ∈ f.visits counter) {e : Entry} (he : e ∈ v.entries) {line : Text}
    (hline : line ∈ e.track.lines) (hremark : Row.IsRemark line) : f.Hides line := by
  obtain ⟨row, hrow, hbecomes⟩ := v.exists_becomes he hline
  cases hbecomes with
  | jump n _ => rcases hremark with ⟨_, hjump⟩ | ⟨_, hjump⟩ <;> cases hjump
  | line =>
    obtain ⟨k, rest, hread⟩ := (Library.stems_of_mem_visits hv).cut line hrow
    have hhead : (List.replicate k '{' ++ (line ++ rest)).head? ≠ some '[' := by
      cases k with
      | zero => rcases hremark with ⟨more, rfl⟩ | ⟨more, rfl⟩ <;> simp
      | succ k => simp [List.replicate_succ]
    have hclean := mem_cleanRows hhead hread
    obtain ⟨written, hwritten, hkept⟩ := List.mem_filterMap.1 hclean
    refine ⟨written, hwritten, (Row.not_isRemark_of_clean? hkept).1, _, k, rest, hkept, rfl, ?_⟩
    rintro rfl
    exact Row.areApart_of_clean? hkept
      (hremark.imp (·.trans (List.prefix_append ..)) (·.trans (List.prefix_append ..)))

end ScriptFile

/-! ### Lines that a cursor gives -/

namespace Directive

theorem eq_of_ofLine_action {line given : Text} (h : ofLine line = .action given) :
    given = line := by
  unfold ofLine at h
  split at h
  · cases h
  · split at h
    · cases h
    · split at h
      · cases h
      · exact (Directive.action.inj h).symm

end Directive

namespace Cursor

variable {library : Library} {owner : Owner} {t : Track} {c d : Cursor} {line : Text}

theorem Traced.exists_track_of_step (h : c.Traced library (t.headOf owner))
    (hstep : c.step = (.emit line, d)) :
    ∃ u, (u = t ∨ ∃ label, library.track? label = some u) ∧ line ∈ u.lines := by
  cases hline : c.position.current.action? with
  | none => simp [step_of_none hline] at hstep
  | some row =>
    cases hd : Directive.ofLine row with
    | jump label suffix => simp [step_of_jump hline hd] at hstep
    | body => simp [step_of_body hline hd] at hstep
    | exec source => simp [step_of_exec hline hd] at hstep
    | action given =>
      rw [step_of_action hline hd, Prod.mk.injEq, Move.emit.injEq] at hstep
      obtain rfl := hstep.1.symm.trans (Directive.eq_of_ofLine_action hd)
      have hlevel := h.sound.position.levels.track_eq
      rw [h.library, h.head] at hlevel
      exact ⟨_, hlevel, List.mem_of_getElem? hline⟩

/-- **A line that a cursor gives is one of its own track or of a track that a label leads to.** -/
theorem Traced.exists_track_of_nextLine (h : c.Traced library (t.headOf owner))
    (hnext : c.nextLine = (some line, d)) :
    ∃ u, (u = t ∨ ∃ label, library.track? label = some u) ∧ line ∈ u.lines := by
  fun_induction Cursor.nextLine c with
  | case1 c e hstep => simp at hnext
  | case2 c e hstep ih => exact ih (by simpa [hstep] using h.step) hnext
  | case3 c given e hstep =>
    obtain ⟨hline, rfl⟩ := Prod.mk.inj hnext
    obtain rfl := Option.some.inj hline
    exact h.exists_track_of_step hstep

end Cursor

namespace Library

variable {files others : List ScriptFile}

theorem addFile_congr {f g : ScriptFile} (h : g.unremarked = f.unremarked) (l : Library) :
    l.addFile g = l.addFile f := by
  have hpath : g.path = f.path := congrArg Prod.fst h
  have hrows : rowsOf g = rowsOf f := by
    change g.cleanRows.map _ = f.cleanRows.map _
    rw [g.cleanRows_eq, f.cleanRows_eq, h, hpath]
  simp only [addFile, hpath, hrows]

/-- What is loaded does not depend on remarks. -/
theorem load_congr (h : others.map ScriptFile.unremarked = files.map ScriptFile.unremarked) :
    load others = load files := by
  suffices hfrom : ∀ l, (others.filter fun f => isScriptPath f.path).foldl addFile l =
      (files.filter fun f => isScriptPath f.path).foldl addFile l from hfrom empty
  induction files generalizing others with
  | nil =>
    rw [List.map_nil, List.map_eq_nil_iff] at h
    simp [h]
  | cons f rest ih =>
    obtain ⟨g, more, rfl, hfirst, hrest⟩ := List.map_eq_cons_iff.1 h
    have hpath : g.path = f.path := congrArg Prod.fst hfirst
    intro l
    cases hscript : isScriptPath f.path with
    | true => simp [hpath, hscript, addFile_congr hfirst, ih hrest]
    | false => simp [hpath, hscript, ih hrest]

theorem hides_of_holds {t : Track} (ht : (load files).Holds t) {line : Text}
    (hline : line ∈ t.lines) (hremark : Row.IsRemark line) :
    ∃ f ∈ files, isScriptPath f.path = true ∧ f.Hides line := by
  obtain ⟨v, hv, e, he, rfl⟩ := ht.exists_entry
  obtain ⟨f, hf, hpath, counter, hvisit, -⟩ := exists_file hv
  exact ⟨f, hf, hpath, ScriptFile.hides_of_mem_visits hvisit he hline hremark⟩

/-- **Remarks are not played.** A load reads as if the remarks were not there, wherever they stand.
If a line of a macro or a block looks like a remark, or a line that is given by a cursor, after any
calls on a run of one of them, then a script file holds it in a row that is no remark: behind
opening braces, or as two hyphens with spaces or tabs between them at the beginning of the row. -/
theorem load_remarks (files : List ScriptFile) :
    (∀ others, others.map ScriptFile.unremarked = files.map ScriptFile.unremarked →
      load others = load files) ∧
    ∀ t, (load files).Holds t →
      (∀ line ∈ t.lines, Row.IsRemark line →
        ∃ f ∈ files, isScriptPath f.path = true ∧ f.Hides line) ∧
      ∀ owner params calls line d,
        ((Cursor.ofTrack (load files) owner t params).after calls).nextLine = (some line, d) →
        Row.IsRemark line → ∃ f ∈ files, isScriptPath f.path = true ∧ f.Hides line := by
  refine ⟨fun others h => load_congr h, fun t ht => ⟨fun line => hides_of_holds ht, ?_⟩⟩
  intro owner params calls line d hnext hremark
  have htraced := (Cursor.traced_ofTrack (load files) owner t params).after calls
  obtain ⟨u, rfl | ⟨label, hlabel⟩, hline⟩ := htraced.exists_track_of_nextLine hnext
  · exact hides_of_holds ht hline hremark
  · exact hides_of_holds (holds_of_track? hlabel) hline hremark

/-- A file with remarks, and with a row that looks like one when its space is taken out. -/
def remarked : ScriptFile :=
  ⟨"f.m".toList, "# pad\n<a>\n -- start\n- -x\n\x7b\n#A\nA\n\x7d\n".toList⟩

/-- The same file without its remarks. -/
def remarkless : ScriptFile := ⟨"f.m".toList, "<a>\n- -x\n\x7b\nA\n\x7d\n".toList⟩

/-- The lines of its macro. -/
def remarkedTrack : Track := ⟨["--x".toList, "[@0]".toList]⟩

theorem load_remarks_remarked :
    load [remarkless] = load [remarked] ∧ (load [remarked]).Holds remarkedTrack ∧
      "--x".toList ∈ remarkedTrack.lines ∧ Row.IsRemark "--x".toList ∧
      (∃ f ∈ [remarked], isScriptPath f.path = true ∧ f.Hides "--x".toList) ∧
      ∃ d, (Cursor.ofTrack (load [remarked]) .root remarkedTrack ⟨∅⟩).nextLine =
          (some "--x".toList, d) ∧
        ∃ f ∈ [remarked], isScriptPath f.path = true ∧ f.Hides "--x".toList := by
  obtain ⟨hsame, hheld⟩ := load_remarks [remarked]
  have hfound : (load [remarked]).track? "f.a".toList = some remarkedTrack := by decide +kernel
  have hholds := holds_of_track? hfound
  obtain ⟨hstored, hgiven⟩ := hheld remarkedTrack hholds
  have hline : "--x".toList ∈ remarkedTrack.lines := by decide
  have hremark : Row.IsRemark "--x".toList := by decide
  have hnext : (Cursor.ofTrack (load [remarked]) .root remarkedTrack ⟨∅⟩).nextLine.1 =
      some "--x".toList := by decide +kernel
  exact ⟨hsame [remarkless] (by decide +kernel), hholds, hline, hremark,
    hstored _ hline hremark, _, Prod.ext hnext rfl,
    hgiven .root ⟨∅⟩ [] _ _ (Prod.ext hnext rfl) hremark⟩

/-- **Taking out a space makes a line look like a remark**, and a cursor gives it. -/
theorem exists_given_remark :
    isScriptPath remarked.path = true ∧ (load [remarked]).Holds remarkedTrack ∧
      ∃ line ∈ remarkedTrack.lines, Row.IsRemark line ∧
        (Cursor.ofTrack (load [remarked]) .root remarkedTrack ⟨∅⟩).nextLine.1 = some line := by
  have hfound : (load [remarked]).track? "f.a".toList = some remarkedTrack := by decide +kernel
  exact ⟨by decide, holds_of_track? hfound, "--x".toList, by decide, by decide, by decide +kernel⟩

end Library

end PadScript
