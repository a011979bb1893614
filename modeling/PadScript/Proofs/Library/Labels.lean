import PadScript.Proofs.Library.Contents
import PadScript.Script.Directive

/-!
# Labels that are stored

A label without a dot is one of the file that it is written in, and the tag of the file is put
before it once the rows are clean. Blocks are cut out of the rows only then. A jump that stands
behind an opening brace is thus not seen, and a tag that holds a closing bracket ends the label too
early. This file shows that every other jump is stored as it is meant.

* `Row.exists_of_qualify` : what a row was before its tag.
* `Library.stored_jump` : **every jump that is stored leads to a block, or has the label that a file
  writes, with the tag of the file if it has no dot**.
* `Library.stored_jump_unqualified` : a jump behind a brace is stored without the tag.
-/

namespace PadScript

/-! ### Jump rows -/

namespace Row

/-- The row that is a jump. -/
def jump (label suffix : Text) : Text := '[' :: label ++ ']' :: suffix

theorem jump?_eq_some_iff {row label suffix : Text} :
    Directive.jump? row = some (label, suffix) ↔ ']' ∉ label ∧ row = jump label suffix := by
  constructor
  · intro h
    unfold Directive.jump? at h
    split at h
    next rest =>
      exact ⟨Text.not_mem_of_cut? h, congrArg ('[' :: ·) (Text.eq_append_of_cut? h)⟩
    next => simp at h
  · rintro ⟨hlabel, rfl⟩
    exact Text.cut?_append hlabel suffix

theorem jump_append (label suffix more : Text) :
    jump label suffix ++ more = jump label (suffix ++ more) := by
  simp [jump]

theorem label_append {before : Text} (h : ']' ∉ before) (after : Text) :
    label (before ++ ']' :: after) = before := by
  have hall : ∀ c ∈ before, (c != ']') = true := by
    rintro c hc
    rw [bne_iff_ne]
    rintro rfl
    exact h hc
  simp [label, List.takeWhile_append_of_pos hall]

/-- The label of the jump that a row is behind its opening braces, if it is one. -/
def openedLabel? (row : Text) : Option Text :=
  (Text.after? ['{'] row).bind fun rest =>
    (Directive.jump? (rest.dropWhile (· == '{'))).map Prod.fst

/-- The braces before a jump are those that the row begins with. -/
theorem openedLabel?_eq_some_iff {row label : Text} :
    openedLabel? row = some label ↔
      ∃ k suffix, ']' ∉ label ∧ row = List.replicate (k + 1) '{' ++ jump label suffix := by
  constructor
  · intro h
    obtain ⟨rest, hafter, hlabel⟩ := Option.bind_eq_some_iff.1 h
    obtain ⟨⟨found, suffix⟩, hjump, rfl⟩ := Option.map_eq_some_iff.1 hlabel
    obtain ⟨hfound, hdropped⟩ := jump?_eq_some_iff.1 hjump
    have hbraces : rest.takeWhile (· == '{') =
        List.replicate (rest.takeWhile (· == '{')).length '{' :=
      List.eq_replicate_of_mem fun c hc => by
        simpa using List.all_eq_true.1 List.all_takeWhile c hc
    have hrest : rest = List.replicate (rest.takeWhile (· == '{')).length '{' ++
        jump found suffix := by
      rw [← hbraces, ← hdropped, List.takeWhile_append_dropWhile]
    exact ⟨_, suffix, hfound,
      (Text.after?_eq_some_iff.1 hafter).trans (congrArg ('{' :: ·) hrest)⟩
  · rintro ⟨k, suffix, hlabel, rfl⟩
    have hafter : Text.after? ['{'] (List.replicate (k + 1) '{' ++ jump label suffix) =
        some (List.replicate k '{' ++ jump label suffix) := Text.after?_eq_some_iff.2 rfl
    have hdropped : (List.replicate k '{' ++ jump label suffix).dropWhile (· == '{') =
        jump label suffix := by
      rw [List.dropWhile_append_of_pos (by simp)]
      simp [jump]
    rw [openedLabel?, hafter, Option.bind_some, hdropped, jump?_eq_some_iff.2 ⟨hlabel, rfl⟩]
    rfl

/-- **What a row was before its tag.** If a row with the tag is a jump, it was one before, to the
same label if that has a dot, and else to the label behind the tag. -/
theorem exists_of_qualify {tag row label suffix : Text} (htag : ']' ∉ tag) (hlabel : ']' ∉ label)
    (h : qualify tag row = jump label suffix) :
    ∃ written, ']' ∉ written ∧ row = jump written suffix ∧
      label = if written.contains '.' then written else tag ++ written := by
  by_cases hhead : row.head? = some '['
  · obtain ⟨rest, rfl⟩ : ∃ rest, row = '[' :: rest := by
      cases row with
      | nil => simp at hhead
      | cons c rest => exact ⟨rest, by simpa using hhead⟩
    simp only [qualify] at h
    split at h
    next hdot =>
      obtain rfl : rest = label ++ ']' :: suffix := (List.cons.inj h).2
      rw [label_append hlabel] at hdot
      exact ⟨label, hlabel, rfl, by rw [if_pos hdot]⟩
    next hdot =>
      -- the tag has no bracket, so it is the front of the label
      have happend : tag ++ rest = label ++ ']' :: suffix := (List.cons.inj h).2
      obtain ⟨written, rfl, rfl⟩ := Text.exists_of_append_eq htag happend
      have hwritten : ']' ∉ written := fun hmem => hlabel (List.mem_append_right _ hmem)
      rw [label_append hwritten] at hdot
      exact ⟨written, hwritten, rfl, by rw [if_neg hdot]⟩
  · rw [qualify_eq_self hhead] at h
    simp [h, jump] at hhead

end Row

/-! ### Files -/

namespace ScriptFile

/-- The file holds the row, perhaps behind opening braces. -/
def Writes (f : ScriptFile) (row : Text) : Prop :=
  ∃ k, List.replicate k '{' ++ row ∈ f.cleanRows

/-- Reading the file yields the track, from whichever number its blocks are counted. -/
def Yields (f : ScriptFile) (t : Track) : Prop :=
  ∃ counter, ∃ v ∈ f.visits counter, ∃ e ∈ v.entries, e.track = t

/-- The label that is meant by one in a file: one with a dot means itself, any other is of the
file. -/
def reference (f : ScriptFile) (label : Text) : Text :=
  if label.contains '.' then label else tagOf f.path ++ label

/-- The labels of a file are all seen when its tag is put before them, and not cut. -/
structure KeepsLabels (f : ScriptFile) : Prop where
  /-- Its tag does not end a label. -/
  tag : ']' ∉ tagOf f.path
  /-- A jump behind an opening brace needs no tag. -/
  opened : ∀ label suffix, ']' ∉ label → f.Opens (Row.jump label suffix) → '.' ∈ label

theorem keepsLabels_iff (f : ScriptFile) :
    f.KeepsLabels ↔ (!(tagOf f.path).contains ']' &&
      (Library.rowsOf f).all fun row => (Row.openedLabel? row).all (·.contains '.')) = true := by
  simp only [Bool.and_eq_true, Bool.not_eq_true', List.contains_eq_mem, decide_eq_false_iff_not,
    List.all_eq_true, Option.all_eq_true, decide_eq_true_eq]
  constructor
  · rintro ⟨htag, hopened⟩
    refine ⟨htag, fun row hrow label hlabel => ?_⟩
    obtain ⟨k, suffix, hbracket, rfl⟩ := Row.openedLabel?_eq_some_iff.1 hlabel
    exact hopened label suffix hbracket ⟨k, hrow⟩
  · rintro ⟨htag, hrows⟩
    refine ⟨htag, fun label suffix hbracket ⟨k, hrow⟩ => ?_⟩
    exact hrows _ hrow label (Row.openedLabel?_eq_some_iff.2 ⟨k, suffix, hbracket, rfl⟩)

instance (f : ScriptFile) : Decidable f.KeepsLabels := decidable_of_iff _ f.keepsLabels_iff.symm

variable {f : ScriptFile} {label suffix : Text}

theorem dot_mem_reference (f : ScriptFile) (label : Text) : '.' ∈ f.reference label := by
  unfold reference
  split
  next h => simpa using h
  next => simp [tagOf]

/-- A jump among the rows that are read was written in the file, to the label that means it. -/
theorem KeepsLabels.exists_writes (h : f.KeepsLabels) (hlabel : ']' ∉ label) {k : Nat}
    (hrow : List.replicate k '{' ++ Row.jump label suffix ∈ Library.rowsOf f) :
    ∃ written, ']' ∉ written ∧ f.Writes (Row.jump written suffix) ∧
      label = f.reference written := by
  cases k with
  | zero =>
    obtain ⟨row, hclean, hqualify⟩ := List.mem_map.1 hrow
    obtain ⟨written, hwritten, rfl, hmeans⟩ := Row.exists_of_qualify h.tag hlabel hqualify
    exact ⟨written, hwritten, ⟨0, hclean⟩, hmeans⟩
  | succ k =>
    have hdot := h.opened label suffix hlabel ⟨k, hrow⟩
    refine ⟨label, hlabel, ⟨k + 1, mem_cleanRows (by simp [List.replicate_succ]) hrow⟩, ?_⟩
    rw [reference, if_pos (by simpa using hdot)]

end ScriptFile

namespace Library

/-- The library holds the track, as a macro or as a block. -/
def Holds (l : Library) (t : Track) : Prop :=
  (∃ name script, l.get? name = some script ∧ script.track = t) ∨
    ∃ name : Text, l.blocks[name]? = some t

theorem holds_of_track? {l : Library} {label : Text} {t : Track} (h : l.track? label = some t) :
    l.Holds t := by
  unfold track? at h
  split at h
  next script hnamed => exact .inl ⟨label, script, hnamed, Option.some.inj h⟩
  next => exact .inr ⟨label, h⟩

variable {files : List ScriptFile}

theorem Holds.exists_entry {t : Track} (h : (load files).Holds t) :
    ∃ v ∈ visits files, ∃ e ∈ v.entries, e.track = t := by
  rcases h with ⟨name, script, hnamed, rfl⟩ | ⟨name, hblock⟩
  · obtain ⟨v, hv, he⟩ := exists_named hnamed
    exact ⟨v, hv, _, he, rfl⟩
  · obtain ⟨v, hv, he⟩ := exists_block hblock
    exact ⟨v, hv, _, he, rfl⟩

/-- A line that is stored is a row that stems from the file of its track, or the jump to a block. -/
theorem exists_cut_or_block {t : Track} (ht : (load files).Holds t) {line : Text}
    (hline : line ∈ t.lines) :
    (∃ f ∈ files, isScriptPath f.path = true ∧ f.Yields t ∧
      ∃ k more, List.replicate k '{' ++ (line ++ more) ∈ rowsOf f) ∨
      ∃ v ∈ visits files, ∃ n suffix, v.block.origin = .block (generatedName n) ∧
        line = Row.jump (generatedName n) suffix := by
  obtain ⟨v, hv, e, he, rfl⟩ := ht.exists_entry
  rcases v.isLine he hline with hrow | ⟨b, hb, name, suffix, horigin, hjump⟩
  · obtain ⟨f, hf, hpath, counter, hvisit, -⟩ := exists_file hv
    exact .inl ⟨f, hf, hpath, ⟨counter, v, hvisit, e, he, rfl⟩,
      (stems_of_mem_visits hvisit).cut line hrow⟩
  · obtain ⟨w, hw, hblock⟩ := exists_visit_of_pending hv hb
    obtain ⟨n, -, hname, -⟩ := (v.putAside hb).closed
    obtain rfl : name = generatedName n := Origin.block.inj (horigin.symm.trans hname)
    exact .inr ⟨w, hw, n, suffix, by rw [hblock, horigin], hjump⟩

/-- **Every stored jump leads where it is meant to.** Where the files keep their labels, a jump
among the lines of any macro or block has the name of a block of this load, or it has a dot in its
label: then the file that yields the lines writes the jump, the row perhaps behind opening braces
and with more behind the suffix, and the label is the written one, behind the tag of that file if
the written one has no dot. -/
theorem stored_jump (h : ∀ f ∈ files, isScriptPath f.path = true → f.KeepsLabels)
    {t : Track} (ht : (load files).Holds t) {line label suffix : Text} (hline : line ∈ t.lines)
    (hjump : Directive.jump? line = some (label, suffix)) :
    (∃ v ∈ visits files, v.block.origin = .block label) ∨
      '.' ∈ label ∧ ∃ f ∈ files, isScriptPath f.path = true ∧ f.Yields t ∧
        ∃ written more, ']' ∉ written ∧ f.Writes (Row.jump written (suffix ++ more)) ∧
          label = f.reference written := by
  obtain ⟨hlabel, rfl⟩ := Row.jump?_eq_some_iff.1 hjump
  rcases exists_cut_or_block ht hline with
    ⟨f, hf, hpath, hyields, k, more, hrow⟩ | ⟨v, hv, n, s, horigin, hblock⟩
  · rw [Row.jump_append] at hrow
    obtain ⟨written, hwritten, hwrites, rfl⟩ := (h f hf hpath).exists_writes hlabel hrow
    exact .inr ⟨f.dot_mem_reference written, f, hf, hpath, hyields, written, more, hwritten,
      hwrites, rfl⟩
  · have hsame : Directive.jump? (Row.jump (generatedName n) s) = some (label, suffix) :=
      hblock ▸ hjump
    have hgiven : Directive.jump? (Row.jump (generatedName n) s) = some (generatedName n, s) :=
      Row.jump?_eq_some_iff.2 ⟨(not_mem_generatedName n).2, rfl⟩
    obtain ⟨rfl, -⟩ := Prod.mk.inj (Option.some.inj (hgiven.symm.trans hsame))
    exact .inl ⟨v, hv, horigin⟩

/-- A file with jumps to a macro of its own, with the tag and without. -/
def caller : ScriptFile :=
  ⟨"sub/foo.m".toList, "<a>\n\x7b[sub.foo.t]\n[t]*2\n\x7d*3\n<t>\nA\n".toList⟩

/-- The lines of the block of that file. -/
def callerBlock : Track := ⟨["[sub.foo.t]".toList, "[sub.foo.t]*2".toList]⟩

theorem stored_jump_caller :
    (∀ f ∈ [caller], isScriptPath f.path = true → f.KeepsLabels) ∧
      (load [caller]).Holds callerBlock ∧ "[sub.foo.t]*2".toList ∈ callerBlock.lines ∧
      ∃ f ∈ [caller], isScriptPath f.path = true ∧ f.Yields callerBlock ∧
        ∃ written more, ']' ∉ written ∧ f.Writes (Row.jump written ("*2".toList ++ more)) ∧
          "sub.foo.t".toList = f.reference written := by
  have hkeeps : ∀ f ∈ [caller], isScriptPath f.path = true → f.KeepsLabels := by
    intro f hf _
    obtain rfl := List.mem_singleton.1 hf
    decide +kernel
  have hfound : (load [caller]).track? (generatedName 0) = some callerBlock := by decide +kernel
  have hholds := holds_of_track? hfound
  have hline : "[sub.foo.t]*2".toList ∈ callerBlock.lines := by decide
  have hjump : Directive.jump? "[sub.foo.t]*2".toList =
      some ("sub.foo.t".toList, "*2".toList) := by decide
  refine ⟨hkeeps, hholds, hline, ?_⟩
  rcases stored_jump hkeeps hholds hline hjump with ⟨v, hv, horigin⟩ | ⟨-, hwritten⟩
  · -- the names of blocks begin with their sign
    obtain ⟨n, heq⟩ := exists_eq_generatedName hv horigin
    simp [generatedName, generatedSign] at heq
  · exact hwritten

/-- A file with a jump behind a brace. -/
def hidden : ScriptFile := ⟨"foo.m".toList, "<a>\n\x7b[t]\x7d\n<t>\nA\n".toList⟩

/-- **A jump behind a brace is stored without the tag**, and leads nowhere. -/
theorem stored_jump_unqualified :
    isScriptPath hidden.path = true ∧ (load [hidden]).Holds ⟨["[t]".toList]⟩ ∧
      Directive.jump? "[t]".toList = some ("t".toList, []) ∧ '.' ∉ "t".toList ∧
      (∀ v ∈ visits [hidden], v.block.origin ≠ .block "t".toList) ∧
      (load [hidden]).track? "t".toList = none := by
  have hfound : (load [hidden]).track? (generatedName 0) = some ⟨["[t]".toList]⟩ := by
    decide +kernel
  refine ⟨by decide, holds_of_track? hfound, by decide, by decide, fun v hv horigin => ?_,
    by decide +kernel⟩
  obtain ⟨n, heq⟩ := exists_eq_generatedName hv horigin
  simp [generatedName, generatedSign] at heq

end Library

end PadScript
