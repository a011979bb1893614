import PadScript.Proofs.Library.Contents

/-!
# Names and the files they belong to

A marker names a macro of its file: the tag of the file is put before the name. A marker inside a
block is a name as it stands, though, and so can be one that belongs to another file. This file
shows that nothing else leaves the names of its file.

* `ScriptFile.declares_or_opens` : what a file yields under a name is declared there, or its marker
  stands behind an opening brace.
* `Library.names_declared` : **unless a row opens a block with its marker, a name belongs to a file
  that declares it, and other files leave its macro alone**.
* `Library.names_taken` : such a row replaces the macro of another file.
-/

namespace PadScript

namespace ScriptFile

/-- The file has a marker for the name, which is its tag and the text of the marker. -/
def Declares (f : ScriptFile) (name : Text) : Prop :=
  ∃ own, Row.marker own ∈ f.cleanRows ∧ name = tagOf f.path ++ own

theorem declares_iff (f : ScriptFile) (name : Text) :
    f.Declares name ↔
      f.cleanRows.any fun row => (Row.marked? row).any (name == tagOf f.path ++ ·) := by
  simp only [Declares, List.any_eq_true, Option.any_eq_true, beq_iff_eq]
  constructor
  · rintro ⟨own, hrow, heq⟩
    exact ⟨_, hrow, own, Row.marked?_eq_some_iff.2 rfl, heq⟩
  · rintro ⟨row, hrow, own, hmarked, heq⟩
    exact ⟨own, Row.marked?_eq_some_iff.1 hmarked ▸ hrow, heq⟩

instance (f : ScriptFile) (name : Text) : Decidable (f.Declares name) :=
  decidable_of_iff _ (f.declares_iff name).symm

/-- A macro that a block yields is opened there with its marker. -/
theorem opens_of_named {f : ScriptFile} {counter n : Nat} {v : Visit} (hv : v ∈ f.visits counter)
    (horigin : v.block.origin = .block (generatedName n)) {name : Text} {script : Script}
    (he : .named name script ∈ v.entries) : f.Opens (Row.marker name) := by
  have hsegment := v.isSegment he
  rw [horigin] at hsegment
  rcases hsegment.start with ⟨hown, -⟩ | ⟨m, hmarker, rfl⟩
  · -- the segment of the block's own name is no macro
    rw [Visit.start, horigin] at hown
    obtain rfl : generatedName n = name := Option.some.inj hown
    obtain ⟨_, hmade⟩ := hsegment.made
    simp [Origin.entry, Entry.name, generatedName] at hmade
  · exact (Library.stems_of_mem_visits hv).marked _ horigin _ hmarker

/-- **A macro that a file yields is declared there, or its marker stands behind a brace.** -/
theorem declares_or_opens {f : ScriptFile} {counter : Nat} {v : Visit} (hv : v ∈ f.visits counter)
    {name : Text} {script : Script} (he : .named name script ∈ v.entries) :
    f.Declares name ∨ f.Opens (Row.marker name) := by
  have hsegment := v.isSegment he
  rcases Block.mem_or_exists_pending hv with hroot | ⟨u, -, hpending⟩
  · have hblock : v.block = f.block := List.mem_singleton.1 hroot
    rw [hblock] at hsegment
    rcases hsegment.start with ⟨hown, -⟩ | ⟨own, hmarker, heq⟩
    · simp [Visit.start, hblock, block, Origin.name?] at hown
    · exact .inl ⟨own, mem_cleanRows (by simp [Row.marker]) (List.dropLast_subset _ hmarker), heq⟩
  · obtain ⟨n, -, horigin, -⟩ := (u.putAside hpending).closed
    exact .inr (opens_of_named hv horigin he)

end ScriptFile

namespace Library

theorem mem_names_iff {l : Library} {name : Text} :
    name ∈ l.names ↔ ∃ script, l.get? name = some script := by
  rw [names, Std.TreeMap.mem_keys, Std.TreeMap.mem_iff_isSome_getElem?, Option.isSome_iff_exists]
  rfl

/-- Entries leave the macros of other names alone. -/
theorem get?_foldl_add {entries : List Entry} {name : Text}
    (h : ∀ script, .named name script ∉ entries) (l : Library) :
    (entries.foldl add l).get? name = l.get? name := by
  induction entries generalizing l with
  | nil => rfl
  | cons e rest ih =>
    rw [List.foldl_cons, ih fun script hmem => h script (List.mem_cons_of_mem _ hmem)]
    cases e with
    | named other script =>
      have hne : other ≠ name := by
        rintro rfl
        exact h script List.mem_cons_self
      simp [get?, add, Std.TreeMap.getElem?_insert, hne]
    | block other t => rfl

/-- A file leaves the macros alone that it neither declares nor names behind a brace. -/
theorem get?_addFile {f : ScriptFile} {name : Text} (hdeclares : ¬ f.Declares name)
    (hopens : ¬ f.Opens (Row.marker name)) (l : Library) :
    (l.addFile f).get? name = l.get? name := by
  rw [addFile_eq, get?_foldl_add]
  · rfl
  · intro script hmem
    obtain ⟨v, hv, he⟩ := List.mem_flatMap.1 hmem
    exact (ScriptFile.declares_or_opens hv he).elim hdeclares hopens

/-- **Names stay with their files.** Take a name that no script file opens a block with the marker
of. If there is a macro of this name, then a script file declares it, so that the name is the tag of
that file and the text of a marker there. Reading a file that does not declare it leaves the macro
as it was, or absent. -/
theorem names_declared {files : List ScriptFile} {name : Text}
    (h : Unopened files (Row.marker name)) :
    (name ∈ (load files).names →
      ∃ f ∈ files, isScriptPath f.path = true ∧ f.Declares name) ∧
    ∀ f ∈ files, isScriptPath f.path = true → ¬ f.Declares name →
      ∀ l : Library, (l.addFile f).get? name = l.get? name := by
  constructor
  · intro hname
    obtain ⟨script, hscript⟩ := mem_names_iff.1 hname
    obtain ⟨v, hv, he⟩ := exists_named hscript
    obtain ⟨f, hf, hpath, counter, hvisit, -⟩ := exists_file hv
    exact ⟨f, hf, hpath, (ScriptFile.declares_or_opens hvisit he).resolve_right (h f hf hpath)⟩
  · intro f hf hpath hdeclares l
    exact get?_addFile hdeclares (h f hf hpath) l

/-- A file with one macro. -/
def victim : ScriptFile := ⟨"b.m".toList, "<x>\nA\n".toList⟩

/-- A file whose blocks name macros of another. -/
def intruder : ScriptFile :=
  ⟨"f.m".toList, "<a>\n\x7b<b.x>\nB\n\x7d\n\x7b<b.y>\nX\n\x7d\n".toList⟩

theorem names_declared_intruder :
    Unopened [victim, intruder] (Row.marker "f.a".toList) ∧
      "f.a".toList ∈ (load [victim, intruder]).names ∧
      (∃ f ∈ [victim, intruder], isScriptPath f.path = true ∧ f.Declares "f.a".toList) ∧
      ¬ victim.Declares "f.a".toList ∧
      ∀ l : Library, (l.addFile victim).get? "f.a".toList = l.get? "f.a".toList := by
  have hunopened : Unopened [victim, intruder] (Row.marker "f.a".toList) := by decide +kernel
  have hname : "f.a".toList ∈ (load [victim, intruder]).names := by decide +kernel
  have hdeclares : ¬ victim.Declares "f.a".toList := by decide +kernel
  obtain ⟨hdeclared, halone⟩ := names_declared hunopened
  exact ⟨hunopened, hname, hdeclared hname, hdeclares,
    halone victim List.mem_cons_self (by decide) hdeclares⟩

/-- **A marker behind a brace leaves its file**: it defines a name that no file declares, and
replaces the macro of another file. -/
theorem names_taken :
    (∀ f ∈ [victim, intruder], isScriptPath f.path = true ∧ ¬ f.Declares "b.y".toList) ∧
      "b.y".toList ∈ (load [victim, intruder]).names ∧ ¬ intruder.Declares "b.x".toList ∧
      (load [victim]).track? "b.x".toList = some ⟨["A".toList]⟩ ∧
      (load [victim, intruder]).track? "b.x".toList = some ⟨["B".toList]⟩ := by
  refine ⟨?_, by decide +kernel, by decide +kernel, by decide +kernel, by decide +kernel⟩
  intro f hf
  rcases List.mem_cons.1 hf with rfl | hf
  · decide +kernel
  · obtain rfl := List.mem_singleton.1 hf
    decide +kernel

end Library

end PadScript
