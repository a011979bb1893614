import PadScript.Proofs.Library.Order
import PadScript.Proofs.Library.Tree

/-!
# The bundle and the folder

A script that is tried out in its folder should run in the same way from the bundle. The two find
the same files, but not in the same order: the bundle compares whole paths, in which `a.m` comes
before `a/b.m`, and the folder compares name by name, so that `a` comes before `a.m`. Which file
comes last matters if two of them define one macro.

* `Bundle.exists_renamed_load` : **the two libraries have the same names and the same blocks**, but
  for the numbers of blocks, and the same macro wherever the files that name it come in the same
  order.
* `Bundle.not_renamed_beside` : what is not promised. A file beside a folder of its name can define
  the macro of a file in that folder, and the two libraries keep different ones.
-/

namespace PadScript

namespace Bundle

/-- **A bundle is loaded like its folder**, but for the numbers of blocks: the macros have the same
names, and the blocks are alike. A macro is alike if the files that may have something to say about
it come in the same order. -/
theorem exists_renamed_load {root : FileTree} (hroot : root.Proper)
    (hfiles : ∀ f ∈ root.scripts [], f.Unnumbered) :
    ∃ ρ : Equiv.Perm Nat,
      (∀ n, Option.Rel (Track.Renamed ρ) ((Library.load (scripts root)).track? (generatedName n))
        ((Library.load (root.scripts [])).track? (generatedName (ρ n)))) ∧
      (∀ name, name ∈ (Library.load (scripts root)).names ↔
        name ∈ (Library.load (root.scripts [])).names) ∧
      ∀ name, (scripts root).filter (·.Names name) = (root.scripts []).filter (·.Names name) →
        Option.Rel (Script.Renamed ρ) ((Library.load (scripts root)).get? name)
          ((Library.load (root.scripts [])).get? name) := by
  have hperm := hroot.perm_scripts
  have hnodup : (scripts root).Nodup := hperm.nodup_iff.2 (hroot.nodup_scripts [])
  have hpath : ∀ f ∈ scripts root, isScriptPath f.path = true := fun f hf =>
    hroot.isScriptPath_of_mem (hperm.mem_iff.1 hf)
  have hunnumbered : ∀ f ∈ scripts root, f.Unnumbered := fun f hf =>
    hfiles f (hperm.mem_iff.1 hf)
  obtain ⟨ρ, hreordered⟩ := Library.exists_reordered hperm hnodup hpath hunnumbered
  exact ⟨ρ, hreordered.track?_renamed, fun name => hreordered.mem_names_iff,
    fun name hsame => hreordered.get?_renamed hsame⟩

/-! ### A file beside a folder of its name -/

/-- A folder with a file `a.m` and a folder `a` that holds a file `b.m`. -/
def beside (outer inner : Text) : FileTree :=
  .folder [(Text.toUtf8 "a.m".toList, .file (Text.toUtf8 outer)),
    (Text.toUtf8 "a".toList, .folder [(Text.toUtf8 "b.m".toList, .file (Text.toUtf8 inner))])]

theorem beside_proper (outer inner : Text) : (beside outer inner).Proper := by
  have hne : Text.toUtf8 "a.m".toList ≠ Text.toUtf8 "a".toList := fun h => by
    have htext := congrArg Text.ofUtf8? h
    rw [Text.ofUtf8?_toUtf8, Text.ofUtf8?_toUtf8] at htext
    exact absurd htext (by decide)
  refine .folder (by simpa using hne) (by simp [Text.ofUtf8?_toUtf8]) ?_
  rintro ⟨name, tree⟩ htree
  obtain ⟨rfl, rfl⟩ | ⟨rfl, rfl⟩ : (name = _ ∧ tree = _) ∨ (name = _ ∧ tree = _) := by
    simpa using htree
  · exact .file _
  · refine .folder (by simp) (by simp [Text.ofUtf8?_toUtf8]) ?_
    simpa using FileTree.Proper.file _

theorem mergeSort_pair {α : Type} (le : α → α → Bool) (a b : α) :
    [a, b].mergeSort le = if le a b then [a, b] else [b, a] := by
  rw [List.mergeSort]
  simp [List.MergeSort.Internal.splitInTwo, List.merge]

/-- The bundle holds the outer file first. -/
theorem scripts_beside (outer inner : Text) :
    scripts (beside outer inner) = [⟨"a.m".toList, outer⟩, ⟨"a/b.m".toList, inner⟩] := by
  have houter : isScriptName "a.m".toList = true := by decide
  have hinner : isScriptName "b.m".toList = true := by decide
  -- the dot comes before the sign between the parts of a path
  have hle : (compare "a.m".toList "a/b.m".toList).isLE = true := by decide
  have hfiles : files (beside outer inner) =
      [⟨"a.m".toList, Text.toUtf8 outer⟩, ⟨"a/b.m".toList, Text.toUtf8 inner⟩] := by
    simp only [files, beside, gatherBelow, gather, Text.ofUtf8?_toUtf8, houter, hinner]
    exact (mergeSort_pair ..).trans (if_pos hle)
  simp [scripts, hfiles, Text.ofUtf8?_toUtf8]

/-- The folder finds the inner file first. -/
theorem beside_scripts (outer inner : Text) :
    (beside outer inner).scripts [] = [⟨"a/b.m".toList, inner⟩, ⟨"a.m".toList, outer⟩] := by
  have houter : isScriptPath ['a', '.', 'm'] = true := by decide
  have hinner : isScriptPath ['a', '/', 'b', '.', 'm'] = true := by decide
  -- a name comes before the longer ones that begin with it
  have hle : FileTree.nameLe (Text.toUtf8 "a.m".toList) (Text.toUtf8 "a".toList) = false := by
    decide
  have hsort : ∀ found found' : List ScriptFile,
      [(Text.toUtf8 "a.m".toList, found), (Text.toUtf8 "a".toList, found')].mergeSort
        (fun a b => FileTree.nameLe a.1 b.1) =
        [(Text.toUtf8 "a".toList, found'), (Text.toUtf8 "a.m".toList, found)] := fun found found' =>
    (mergeSort_pair ..).trans (if_neg (Bool.eq_false_iff.1 hle))
  have hfound : FileTree.scriptsBelow [] [(Text.toUtf8 "a.m".toList, .file (Text.toUtf8 outer)),
      (Text.toUtf8 "a".toList, .folder [(Text.toUtf8 "b.m".toList, .file (Text.toUtf8 inner))])] =
      [(Text.toUtf8 "a.m".toList, [⟨"a.m".toList, outer⟩]),
        (Text.toUtf8 "a".toList, [⟨"a/b.m".toList, inner⟩])] := by
    simp [FileTree.scriptsBelow, FileTree.scripts, Text.ofUtf8?_toUtf8, FileTree.join, houter,
      hinner]
  rw [beside, FileTree.scripts, hfound, hsort]
  rfl

theorem unnumbered_beside {outer inner : Text}
    (h : ∀ f ∈ [(⟨"a/b.m".toList, inner⟩ : ScriptFile), ⟨"a.m".toList, outer⟩],
      ∀ row ∈ Library.rowsOf f, generatedSign ∉ row) :
    ∀ f ∈ (beside outer inner).scripts [], f.Unnumbered := fun f hf =>
  ScriptFile.unnumbered_of_not_mem (h f (beside_scripts outer inner ▸ hf))

/-- Where each file has macros of its own, the two are alike whatever comes first: the blocks of the
two files change their numbers. -/
theorem exists_renamed_load_beside :
    let root := beside "<y>\n\x7b\nB\n\x7d\n".toList "<x>\n\x7b\nA\n\x7d\n".toList
    let name := "a.b.x".toList
    root.Proper ∧ (∀ f ∈ root.scripts [], f.Unnumbered) ∧
      (scripts root).filter (·.Names name) = (root.scripts []).filter (·.Names name) ∧
      ((Library.load (scripts root)).get? name).map (·.track.lines) = some ["[@1]".toList] ∧
      ((Library.load (root.scripts [])).get? name).map (·.track.lines) = some ["[@0]".toList] ∧
      ∃ ρ : Equiv.Perm Nat, Option.Rel (Script.Renamed ρ) ((Library.load (scripts root)).get? name)
        ((Library.load (root.scripts [])).get? name) := by
  intro root name
  have hroot : root.Proper := beside_proper ..
  have hbundle : scripts root = _ := scripts_beside ..
  have hfolder : root.scripts [] = _ := beside_scripts ..
  have hfiles : ∀ f ∈ root.scripts [], f.Unnumbered := unnumbered_beside (by decide +kernel)
  have hsame : (scripts root).filter (·.Names name) = (root.scripts []).filter (·.Names name) := by
    rw [hbundle, hfolder]
    decide +kernel
  refine ⟨hroot, hfiles, hsame, ?_, ?_, ?_⟩
  · rw [hbundle]
    decide +kernel
  · rw [hfolder]
    decide +kernel
  · obtain ⟨ρ, -, -, hscripts⟩ := exists_renamed_load hroot hfiles
    exact ⟨ρ, hscripts name hsame⟩

/-- The outer file can define a macro of the inner one, and then the bundle keeps the one of the
inner file, and the folder the other. -/
theorem not_renamed_beside :
    let root := beside "<b.x>\nB\n".toList "<x>\nA\n".toList
    let name := "a.b.x".toList
    root.Proper ∧ (∀ f ∈ root.scripts [], f.Unnumbered) ∧
      ¬ ∃ ρ : Nat → Nat, Option.Rel (Script.Renamed ρ) ((Library.load (scripts root)).get? name)
        ((Library.load (root.scripts [])).get? name) := by
  intro root name
  have hbundle : scripts root = _ := scripts_beside ..
  have hfolder : root.scripts [] = _ := beside_scripts ..
  refine ⟨beside_proper .., unnumbered_beside (by decide +kernel), ?_⟩
  rintro ⟨ρ, hrel⟩
  have hfirst : ((Library.load (scripts root)).get? name).map (·.track.lines) =
      some ["A".toList] := by
    rw [hbundle]
    decide +kernel
  have hlast : ((Library.load (root.scripts [])).get? name).map (·.track.lines) =
      some ["B".toList] := by
    rw [hfolder]
    decide +kernel
  obtain ⟨script, hscript, hlines⟩ := Option.map_eq_some_iff.1 hfirst
  obtain ⟨script', hscript', hlines'⟩ := Option.map_eq_some_iff.1 hlast
  rw [hscript, hscript'] at hrel
  obtain ⟨⟨htrack, -⟩⟩ := hrel
  rw [Track.Renamed, hlines, hlines'] at htrack
  cases htrack with
  | cons hrow _ => cases hrow

end Bundle

end PadScript
