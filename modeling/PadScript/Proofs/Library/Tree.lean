import Mathlib.Data.List.Nodup
import Mathlib.Data.List.Perm.Basic
import PadScript.Device.Bundle

/-!
# The script files of a tree

The bundle and the folder find the script files of a tree in two ways: one looks at the name of a
file, the other at its whole path, and each sorts what it finds in its own way. This file shows that
they find the same files.

* `FileTree.Proper` : a tree that a disk can hold.
* `FileTree.isScriptPath_join` : **looking at the name and at the path comes to the same.**
* `FileTree.Proper.perm_scripts` : **both find the same files.**
* `FileTree.Proper.nodup_scripts` : **no file is found twice.**
-/

namespace PadScript

/-- The script file that a bundled file is, if its contents are a text. -/
def Bundle.text? (f : BundledFile) : Option ScriptFile :=
  (Text.ofUtf8? f.content).map (⟨f.path, ·⟩)

namespace FileTree

/-- A part of a path that is walked through: it is not empty, holds no sign between parts and is not
hidden. -/
structure IsPart (name : Text) : Prop where
  /-- There is a name. -/
  ne_nil : name ≠ []
  /-- It is one part. -/
  not_mem : '/' ∉ name
  /-- It is not hidden. -/
  head : name.head? ≠ some '.'

/-- No part of the path is hidden. -/
def Visible (path : Text) : Prop := ∀ part ∈ Text.pieces '/' path, part.head? ≠ some '.'

theorem visible_nil : Visible [] := by
  intro part hpart
  simp only [Text.pieces, List.mem_singleton] at hpart
  subst hpart
  simp

theorem Visible.join {folder name : Text} (h : Visible folder) (hname : IsPart name) :
    Visible (join folder name) := by
  intro part hpart
  have hpieces := Text.pieces_eq_singleton hname.not_mem
  unfold FileTree.join at hpart
  split at hpart
  · rw [hpieces, List.mem_singleton] at hpart
    exact hpart ▸ hname.head
  · rw [Text.pieces_append_cons, hpieces, List.mem_append, List.mem_singleton] at hpart
    rcases hpart with hpart | rfl
    · exact h part hpart
    · exact hname.head

theorem join_ne_nil {folder name : Text} (hname : IsPart name) : join folder name ≠ [] := by
  unfold FileTree.join
  split
  · exact hname.ne_nil
  · simp

/-! ### Endings -/

/-- The text ends with a dot and the letter of script files, and there is something before. -/
def HasEnding (t : Text) : Prop :=
  ∃ stem c, stem ≠ [] ∧ t = stem ++ ['.', c] ∧ c.toLower = 'm'

theorem eq_dot_of_toLower {c : Char} (h : c.toLower = '.') : c = '.' := by
  unfold Char.toLower at h
  split at h
  next hupper =>
    -- a capital letter becomes a small one
    have hval : (c.val + ('a'.val - 'A'.val)).toNat = '.'.val.toNat :=
      congrArg (fun d : Char => d.val.toNat) h
    have hle : 'A'.val.toNat ≤ c.val.toNat := UInt32.le_iff_toNat_le.1 hupper.1
    have hge : c.val.toNat ≤ 'Z'.val.toNat := UInt32.le_iff_toNat_le.1 hupper.2
    simp at hval hle hge
    omega
  next => exact h

theorem eqIgnoreCase_scriptEnding {t : Text} :
    Text.eqIgnoreCase t scriptEnding = true ↔ ∃ c, t = ['.', c] ∧ c.toLower = 'm' := by
  constructor
  · intro h
    have hmap : t.map Char.toLower = ['.', 'm'] := by
      simpa [Text.eqIgnoreCase, scriptEnding] using h
    obtain ⟨d, rest, rfl, hd, hrest⟩ := List.map_eq_cons_iff.1 hmap
    obtain ⟨c, tail, rfl, hc, htail⟩ := List.map_eq_cons_iff.1 hrest
    obtain rfl := List.map_eq_nil_iff.1 htail
    exact ⟨c, by rw [eq_dot_of_toLower hd], hc⟩
  · rintro ⟨c, rfl, hc⟩
    simp [Text.eqIgnoreCase, scriptEnding, hc]

theorem eqIgnoreCase_letter {t : Text} :
    Text.eqIgnoreCase t ['m'] = true ↔ ∃ c, t = [c] ∧ c.toLower = 'm' := by
  simp [Text.eqIgnoreCase, List.map_eq_cons_iff]

theorem isScriptName_iff {name : Text} : Bundle.isScriptName name = true ↔ HasEnding name := by
  constructor
  · intro h
    simp only [Bundle.isScriptName, Bundle.extension?] at h
    split at h
    next ext hext =>
      split at hext
      next after before hcut =>
        split at hext
        · cases hext
        next hbefore =>
          obtain rfl := Option.some.inj hext
          obtain ⟨c, hafter, hc⟩ := eqIgnoreCase_letter.1 h
          have hname := congrArg List.reverse (Text.eq_append_of_cut? hcut)
          refine ⟨before.reverse, c, by simpa using hbefore, ?_, hc⟩
          simpa [hafter] using hname
      next => cases hext
    next => cases h
  · rintro ⟨stem, c, hstem, rfl, hc⟩
    have hdot : '.' ∉ [c] := by
      rintro hmem
      obtain rfl := List.mem_singleton.1 hmem
      exact absurd hc (by decide)
    have hreverse : (stem ++ ['.', c]).reverse = [c] ++ '.' :: stem.reverse := by simp
    have hext : Bundle.extension? (stem ++ ['.', c]) = some [c] := by
      simp only [Bundle.extension?, hreverse, Text.cut?_append hdot]
      simp [hstem]
    simp only [Bundle.isScriptName, hext]
    exact eqIgnoreCase_letter.2 ⟨c, rfl, hc⟩

theorem isScriptPath_iff {path : Text} :
    isScriptPath path = true ↔ HasEnding path ∧ Visible path := by
  have hvisible : ((Text.pieces '/' path).all fun part => part.head? != some '.') = true ↔
      Visible path := by simp [Visible, List.all_eq_true]
  rw [isScriptPath, Bool.and_eq_true, Bool.and_eq_true, hvisible, decide_eq_true_eq,
    eqIgnoreCase_scriptEnding]
  refine and_congr_left fun _ => ?_
  constructor
  · rintro ⟨hlength, c, hlast, hc⟩
    refine ⟨path.take (path.length - scriptEnding.length), c, ?_, ?_, hc⟩
    · rw [← List.length_pos_iff, List.length_take]
      omega
    · rw [← hlast, List.take_append_drop]
  · rintro ⟨stem, c, hstem, rfl, hc⟩
    have hlength : (stem ++ ['.', c]).length - scriptEnding.length = stem.length := by
      simp [scriptEnding]
    refine ⟨?_, c, ?_, hc⟩
    · have hpos := List.length_pos_iff.2 hstem
      rw [List.length_append]
      exact Nat.lt_add_of_pos_left hpos
    · rw [hlength, List.drop_left]

/-- Only the name that a path ends with counts. -/
theorem hasEnding_join {folder name : Text} (hname : IsPart name) :
    HasEnding (join folder name) ↔ HasEnding name := by
  unfold join
  split
  · exact Iff.rfl
  constructor
  · rintro ⟨stem, c, -, heq, hc⟩
    rw [List.append_cons] at heq
    rcases List.append_eq_append_iff.1 heq with ⟨more, hstem, hmore⟩ | ⟨more, hfolder, hmore⟩
    · refine ⟨more, c, ?_, hmore, hc⟩
      rintro rfl
      exact hname.head (by rw [hmore]; rfl)
    · cases more with
      | nil => exact absurd (congrArg List.head? hmore).symm hname.head
      | cons d more =>
        -- the sign between the parts would be the dot of the ending
        obtain ⟨rfl, hrest⟩ := List.cons.inj hmore
        obtain rfl : more = [] := by
          have hpos := List.length_pos_iff.2 hname.ne_nil
          have hlength : 1 = (more ++ name).length := congrArg List.length hrest
          rw [List.length_append] at hlength
          exact List.eq_nil_of_length_eq_zero (by omega)
        simpa using congrArg List.getLast? hfolder
  · rintro ⟨stem, c, -, rfl, hc⟩
    exact ⟨folder ++ '/' :: stem, c, by simp, by simp, hc⟩

/-- **Looking at the name of a file and at its path comes to the same.** -/
theorem isScriptPath_join {folder name : Text} (hfolder : Visible folder) (hname : IsPart name) :
    isScriptPath (join folder name) = Bundle.isScriptName name := by
  rw [Bool.eq_iff_iff, isScriptPath_iff, isScriptName_iff, hasEnding_join hname,
    and_iff_left (hfolder.join hname)]

/-! ### Trees -/

/-- A tree that a disk can hold: the names in a folder are different ones, and each that is a text
is not empty and holds no sign between the parts of a path. -/
inductive Proper : FileTree → Prop
  /-- A file. -/
  | file (content : List UInt8) : Proper (.file content)
  /-- A folder. -/
  | folder {entries : List (FileName × FileTree)} :
      (entries.map Prod.fst).Nodup →
      (∀ e ∈ entries, ∀ shown, Text.ofUtf8? e.1 = some shown → shown ≠ [] ∧ '/' ∉ shown) →
      (∀ e ∈ entries, Proper e.2) → Proper (.folder entries)

/-- The name of an entry that is walked through. -/
def shown? (name : FileName) : Option Text :=
  (Text.ofUtf8? name).filter fun shown => shown.head? != some '.'

/-- The entries of a folder that are walked through, by name. -/
def walked (entries : List (FileName × FileTree)) : List (Text × FileTree) :=
  entries.filterMap fun e => (shown? e.1).map (·, e.2)

theorem gatherBelow_eq (path : Text) (entries : List (FileName × FileTree)) :
    Bundle.gatherBelow path entries =
      (walked entries).flatMap fun e => Bundle.gather e.1 (join path e.1) e.2 := by
  induction entries with
  | nil => simp [Bundle.gatherBelow, walked]
  | cons e rest ih =>
    obtain ⟨name, tree⟩ := e
    cases hname : Text.ofUtf8? name with
    | none => simpa [Bundle.gatherBelow, walked, shown?, hname] using ih
    | some shown =>
      by_cases hhidden : shown.head? = some '.'
      · simpa [Bundle.gatherBelow, walked, shown?, hname, hhidden] using ih
      · simpa [Bundle.gatherBelow, walked, shown?, hname, hhidden] using ih

theorem flatMap_scriptsBelow (path : Text) (entries : List (FileName × FileTree)) :
    (scriptsBelow path entries).flatMap (·.2) =
      (walked entries).flatMap fun e => e.2.scripts (join path e.1) := by
  induction entries with
  | nil => simp [scriptsBelow, walked]
  | cons e rest ih =>
    obtain ⟨name, tree⟩ := e
    cases hname : Text.ofUtf8? name with
    | none => simpa [scriptsBelow, walked, shown?, hname] using ih
    | some shown =>
      by_cases hhidden : shown.head? = some '.'
      · simpa [scriptsBelow, walked, shown?, hname, hhidden] using ih
      · simpa [scriptsBelow, walked, shown?, hname, hhidden] using ih

/-- What a folder finds is what its entries find, in some order. -/
theorem perm_scripts_folder (path : Text) (entries : List (FileName × FileTree)) :
    ((folder entries).scripts path).Perm
      ((walked entries).flatMap fun e => e.2.scripts (join path e.1)) := by
  rw [scripts, ← flatMap_scriptsBelow]
  exact (List.mergeSort_perm _ _).flatMap_right _

theorem mem_walked {entries : List (FileName × FileTree)} {shown : Text} {tree : FileTree}
    (h : (shown, tree) ∈ walked entries) :
    ∃ name, (name, tree) ∈ entries ∧ shown? name = some shown := by
  obtain ⟨⟨name, tree'⟩, hmem, heq⟩ := List.mem_filterMap.1 h
  obtain ⟨shown', hshown, heq⟩ := Option.map_eq_some_iff.1 heq
  obtain ⟨rfl, rfl⟩ := Prod.mk.inj heq
  exact ⟨name, hmem, hshown⟩

/-! ### Where files lie -/

/-- The second path is that of something at or below the first one. -/
def AtOrBelow (path q : Text) : Prop :=
  ∃ rest, q = path ++ rest ∧ ∀ c, rest.head? = some c → c = '/'

/-- A part of a path is what stands before the next sign. -/
theorem takeWhile_append {part rest : Text} (hpart : IsPart part)
    (hrest : ∀ c, rest.head? = some c → c = '/') :
    (part ++ rest).takeWhile (· ≠ '/') = part := by
  have hmem : ∀ c ∈ part, decide (c ≠ '/') = true := by
    intro c hc
    exact decide_eq_true fun h => hpart.not_mem (h ▸ hc)
  have hstop : rest.takeWhile (· ≠ '/') = [] := by
    cases rest with
    | nil => rfl
    | cons c rest => rw [hrest c rfl, List.takeWhile_cons_of_neg (by simp)]
  rw [List.takeWhile_append_of_pos hmem, hstop, List.append_nil]

/-- Nothing lies at or below two entries of one folder. -/
theorem AtOrBelow.eq_of_join {path name name' q : Text} (h : AtOrBelow (join path name) q)
    (h' : AtOrBelow (join path name') q) (hname : IsPart name) (hname' : IsPart name') :
    name = name' := by
  obtain ⟨rest, hrest, hhead⟩ := h
  obtain ⟨rest', hrest', hhead'⟩ := h'
  have heq : name ++ rest = name' ++ rest' := by
    rw [hrest, join, join] at hrest'
    split at hrest' <;> simpa using hrest'
  rw [← takeWhile_append hname hhead, heq, takeWhile_append hname' hhead']

namespace Proper

variable {entries : List (FileName × FileTree)}

theorem of_walked (h : (FileTree.folder entries).Proper) {e : Text × FileTree}
    (he : e ∈ walked entries) : e.2.Proper := by
  cases h with
  | folder _ _ hbelow =>
    obtain ⟨name, hmem, -⟩ := mem_walked he
    exact hbelow _ hmem

theorem isPart (h : (FileTree.folder entries).Proper) {e : Text × FileTree}
    (he : e ∈ walked entries) : IsPart e.1 := by
  cases h with
  | folder _ hparts _ =>
    obtain ⟨name, hmem, hshown⟩ := mem_walked he
    obtain ⟨htext, hhead⟩ := Option.filter_eq_some_iff.1 hshown
    obtain ⟨hne, hmem⟩ := hparts _ hmem _ htext
    exact ⟨hne, hmem, by simpa using hhead⟩

theorem nodup_walked (h : (FileTree.folder entries).Proper) :
    ((walked entries).map Prod.fst).Nodup := by
  cases h with
  | folder hnodup _ _ =>
    have hmap : (walked entries).map Prod.fst = (entries.map Prod.fst).filterMap shown? := by
      rw [walked, List.map_filterMap, List.filterMap_map]
      refine List.filterMap_congr fun e _ => ?_
      rw [Option.map_map]
      exact Option.map_id'
    rw [hmap]
    refine hnodup.filterMap fun name name' shown hname hname' => ?_
    exact Text.ofUtf8?_inj (Option.filter_eq_some_iff.1 hname).1
      (Option.filter_eq_some_iff.1 hname').1

/-- Induction on a tree along the entries that are walked through. -/
theorem walked_induction {motive : (tree : FileTree) → tree.Proper → Prop}
    (file : ∀ content, motive (.file content) (.file content))
    (folder : ∀ {entries} (h : (FileTree.folder entries).Proper),
      (∀ e (he : e ∈ walked entries), motive e.2 (h.of_walked he)) → motive (.folder entries) h)
    {tree : FileTree} (h : tree.Proper) : motive tree h := by
  induction h with
  | file content => exact file content
  | folder hnodup hparts hbelow ih =>
    refine folder (.folder hnodup hparts hbelow) fun e he => ?_
    obtain ⟨own, hmem, -⟩ := mem_walked he
    exact ih _ hmem

/-- The bundle finds the files of a folder if it finds those of its entries. -/
theorem perm_gatherBelow {path : Text}
    (hentries : ∀ e ∈ walked entries, ((Bundle.gather e.1 (join path e.1) e.2).filterMap
      Bundle.text?).Perm (e.2.scripts (join path e.1))) :
    ((Bundle.gatherBelow path entries).filterMap Bundle.text?).Perm
      ((FileTree.folder entries).scripts path) := by
  rw [gatherBelow_eq, List.filterMap_flatMap]
  exact (List.Perm.flatMap_left _ hentries).trans (perm_scripts_folder ..).symm

/-- The bundle and the folder find the same files at an entry that is walked through. -/
theorem perm_gather {tree : FileTree} (h : tree.Proper) {dir name : Text} (hdir : Visible dir)
    (hname : IsPart name) :
    ((Bundle.gather name (join dir name) tree).filterMap Bundle.text?).Perm
      (tree.scripts (join dir name)) := by
  induction h using walked_induction generalizing dir name with
  | file content =>
    rw [Bundle.gather, scripts, isScriptPath_join hdir hname]
    cases hcontent : Text.ofUtf8? content <;> cases Bundle.isScriptName name <;>
      simp [Bundle.text?, hcontent]
  | folder h ih =>
    rw [Bundle.gather]
    exact perm_gatherBelow fun e he => ih e he (hdir.join hname) (h.isPart he)

/-- **The bundle and the folder find the same files.** -/
theorem perm_scripts {root : FileTree} (h : root.Proper) :
    (Bundle.scripts root).Perm (root.scripts []) := by
  cases root with
  | file content =>
    have hscripts : (FileTree.file content).scripts [] = [] := by
      rw [scripts]
      split <;> rfl
    rw [hscripts]
    exact .nil
  | folder entries =>
    refine ((List.mergeSort_perm _ _).filterMap Bundle.text?).trans ?_
    exact perm_gatherBelow fun e he =>
      (h.of_walked he).perm_gather visible_nil (h.isPart he)

/-- A file that a tree with a path finds lies at or below that path. -/
theorem atOrBelow_of_mem {tree : FileTree} (h : tree.Proper) {path : Text} (hpath : path ≠ [])
    {f : ScriptFile} (hf : f ∈ tree.scripts path) : AtOrBelow path f.path := by
  induction h using walked_induction generalizing path with
  | file content =>
    rw [scripts] at hf
    split at hf
    · split at hf
      · obtain rfl := List.mem_singleton.1 hf
        exact ⟨[], by simp, by simp⟩
      · cases hf
    · cases hf
  | folder h ih =>
    obtain ⟨e, he, hf⟩ := List.mem_flatMap.1 ((perm_scripts_folder ..).mem_iff.1 hf)
    obtain ⟨rest, hrest, -⟩ := ih e he (join_ne_nil (h.isPart he)) hf
    exact ⟨'/' :: e.1 ++ rest, by simpa [join, hpath] using hrest, by simp⟩

/-- What a tree finds are script files. -/
theorem isScriptPath_of_mem {tree : FileTree} (h : tree.Proper) {path : Text} {f : ScriptFile}
    (hf : f ∈ tree.scripts path) : isScriptPath f.path = true := by
  induction h using walked_induction generalizing path with
  | file content =>
    rw [scripts] at hf
    split at hf
    · split at hf
      next hpath =>
        obtain rfl := List.mem_singleton.1 hf
        exact hpath
      next => cases hf
    · cases hf
  | folder h ih =>
    obtain ⟨e, he, hf⟩ := List.mem_flatMap.1 ((perm_scripts_folder ..).mem_iff.1 hf)
    exact ih e he hf

/-- **No file is found twice.** -/
theorem nodup_scripts {tree : FileTree} (h : tree.Proper) (path : Text) :
    (tree.scripts path).Nodup := by
  induction h using walked_induction generalizing path with
  | file content =>
    rw [scripts]
    split
    · split <;> simp
    · exact List.nodup_nil
  | folder h ih =>
    rw [(perm_scripts_folder ..).nodup_iff, List.nodup_flatMap]
    constructor
    · exact fun e he => ih e he _
    · -- what lies at or below two entries has two names
      refine (List.pairwise_map.1 h.nodup_walked).imp_of_mem fun {e e'} he he' hne => ?_
      intro f hf hf'
      have hbelow := (h.of_walked he).atOrBelow_of_mem (join_ne_nil (h.isPart he)) hf
      have hbelow' := (h.of_walked he').atOrBelow_of_mem (join_ne_nil (h.isPart he')) hf'
      exact hne (hbelow.eq_of_join hbelow' (h.isPart he) (h.isPart he'))

end Proper

end FileTree

end PadScript
