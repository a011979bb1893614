import Mathlib.Tactic.SplitIfs
import PadScript.Proofs.Library.Bundle
import PadScript.Proofs.Library.Literal

/-!
# What the table of a bundle lists

A bundle is made by walking through a folder, which hands out the entries of each folder in an order
of its own, and the walk looks at names only. This file says what comes out of it, without the walk:
the files that lie below the folder at paths of script files, in the order of the bytes of these
paths.

* `Text.toUtf8_lt` : **the order of characters is the order of bytes**.
* `FileTree.LiesAt` : where a file lies in a tree.
* `FileTree.Proper.mem_gatherBelow` : **a walk finds a file if its path is one of a script file**.
* `FileTree.Reordered` : the same tree, its entries handed out in another order.
* `Bundle.entry?_row` : a row of the table is read back as the path of a file and where the file is.
* `Bundle.files_listed` : **the written table lists every script file once, in order, and nothing
  else**, and so what loads the bundle passes nothing over.
-/

namespace PadScript

/-! ### The order of bytes -/

namespace Text

theorem lt_digits {m n : Nat} (h : m < n) (hn : n < 0x110000) :
    m / 262144 % 8 < n / 262144 % 8 ∨ m / 262144 % 8 = n / 262144 % 8 ∧
      (m / 4096 % 64 < n / 4096 % 64 ∨ m / 4096 % 64 = n / 4096 % 64 ∧
        (m / 64 % 64 < n / 64 % 64 ∨ m / 64 % 64 = n / 64 % 64 ∧ m % 64 < n % 64)) := by
  rcases Nat.lt_or_ge (m / 64) (n / 64) with h64 | h64
  · rcases Nat.lt_or_ge (m / 4096) (n / 4096) with h4096 | h4096
    · omega
    · omega
  · omega

/-- A smaller character has smaller bytes, whatever follows. -/
theorem encodeChar_append_lt {c d : Char} (h : c < d) (s t : List UInt8) :
    String.utf8EncodeChar c ++ s < String.utf8EncodeChar d ++ t := by
  have hval : c.val.toNat < d.val.toNat := UInt32.lt_iff_toNat_lt.1 h
  have hmax : d.val.toNat < 0x110000 := d.valid.elim (fun h => by omega) fun h => h.2
  have hdigits := lt_digits hval hmax
  simp only [String.utf8EncodeChar]
  generalize c.val.toNat = m at hval hdigits ⊢
  generalize d.val.toNat = n at hval hmax hdigits ⊢
  -- if the lengths differ the first bytes do, and else the digits
  split_ifs <;>
    simp only [List.cons_append, List.cons_lt_cons_iff, UInt8.lt_iff_toNat_lt, ← UInt8.toNat_inj,
      UInt8.toNat_ofNat'] <;>
    simp (disch := omega) only [Nat.mod_eq_of_lt (b := 256)] <;>
    omega

/-- **The order of characters is the order of bytes.** -/
theorem toUtf8_lt {s t : Text} (h : compare s t = .lt) : toUtf8 s < toUtf8 t := by
  induction s generalizing t with
  | nil =>
    cases t with
    | nil => cases h
    | cons d t =>
      have hpos : 0 < (String.utf8EncodeChar d).length := by
        rw [String.length_utf8EncodeChar]
        exact Char.utf8Size_pos d
      have hne : toUtf8 (d :: t) ≠ [] := by
        rw [toUtf8, List.flatMap_cons, ← List.length_pos_iff, List.length_append]
        omega
      obtain ⟨first, rest, hbytes⟩ := List.exists_cons_of_ne_nil hne
      rw [hbytes]
      exact List.nil_lt_cons ..
  | cons c s ih =>
    cases t with
    | nil => cases h
    | cons d t =>
      rw [List.compare_cons_cons, Ordering.then_eq_lt] at h
      rcases h with hlt | ⟨heq, hrest⟩
      · exact encodeChar_append_lt (compareOfLessAndEq_eq_lt.1 hlt) _ _
      · obtain rfl := Std.LawfulEqCmp.eq_of_compare heq
        exact List.append_left_lt (ih hrest)

end Text

namespace FileTree

/-! ### Where files lie -/

/-- In a tree that is at the first path, a file with these contents lies at the second one. -/
inductive LiesAt : (path : Text) → FileTree → (q : Text) → (content : List UInt8) → Prop
  /-- The tree is that file. -/
  | file {path : Text} {content : List UInt8} : LiesAt path (.file content) path content
  /-- An entry holds it, or is it. -/
  | entry {path q : Text} {content : List UInt8} {entries : List (FileName × FileTree)}
      {name : FileName} {shown : Text} {tree : FileTree} :
      (name, tree) ∈ entries → Text.ofUtf8? name = some shown →
      LiesAt (join path shown) tree q content → LiesAt path (.folder entries) q content

theorem liesAt_file_iff {path q : Text} {content content' : List UInt8} :
    LiesAt path (.file content) q content' ↔ q = path ∧ content' = content := by
  constructor
  · intro h
    cases h
    exact ⟨rfl, rfl⟩
  · rintro ⟨rfl, rfl⟩
    exact .file

theorem LiesAt.atOrBelow {tree : FileTree} {path q : Text} {content : List UInt8}
    (h : LiesAt path tree q content) (hpath : path ≠ []) : AtOrBelow path q := by
  induction h with
  | file => exact ⟨[], by simp, by simp⟩
  | @entry path q _ _ _ shown _ _ _ _ ih =>
    have hjoin : join path shown = path ++ '/' :: shown := by simp [join, hpath]
    obtain ⟨rest, hrest, -⟩ := ih (by simp [hjoin])
    exact ⟨'/' :: shown ++ rest, by simpa [hjoin] using hrest, by simp⟩

theorem AtOrBelow.pieces_subset {path q : Text} (h : AtOrBelow path q) :
    Text.pieces '/' path ⊆ Text.pieces '/' q := by
  obtain ⟨rest, rfl, hhead⟩ := h
  cases rest with
  | nil => simp
  | cons c rest =>
    obtain rfl := hhead c rfl
    rw [Text.pieces_append_cons]
    exact List.subset_append_left ..

theorem mem_pieces_join {folder name : Text} (hname : '/' ∉ name) :
    name ∈ Text.pieces '/' (join folder name) := by
  have hpieces := Text.pieces_eq_singleton hname
  unfold join
  split
  · simp [hpieces]
  · simp [Text.pieces_append_cons, hpieces]

namespace Proper

variable {entries : List (FileName × FileTree)} {path : Text}

/-- What lies at the path of a script file is walked through on the way. -/
theorem mem_walked (h : (FileTree.folder entries).Proper) {name : FileName} {shown q : Text}
    {tree : FileTree} {content : List UInt8} (hmem : (name, tree) ∈ entries)
    (hshown : Text.ofUtf8? name = some shown) (hlies : LiesAt (join path shown) tree q content)
    (hq : isScriptPath q = true) : (shown, tree) ∈ walked entries := by
  obtain ⟨hne, hslash⟩ : shown ≠ [] ∧ '/' ∉ shown := by
    cases h with
    | folder _ hparts _ => exact hparts _ hmem _ hshown
  have hjoin : join path shown ≠ [] := by
    unfold join
    split
    · exact hne
    · simp
  have hpart := (hlies.atOrBelow hjoin).pieces_subset (mem_pieces_join hslash)
  have hhead := (isScriptPath_iff.1 hq).2 shown hpart
  refine List.mem_filterMap.2 ⟨(name, tree), hmem, ?_⟩
  simp [shown?, hshown, hhead]

/-- A walk finds what lies below a folder if it finds what lies at each of the entries. -/
theorem mem_gatherBelow_of_entries (h : (FileTree.folder entries).Proper) {f : BundledFile}
    (hentries : ∀ e ∈ walked entries, f ∈ Bundle.gather e.1 (join path e.1) e.2 ↔
      isScriptPath f.path = true ∧ LiesAt (join path e.1) e.2 f.path f.content) :
    f ∈ Bundle.gatherBelow path entries ↔
      isScriptPath f.path = true ∧ LiesAt path (.folder entries) f.path f.content := by
  rw [gatherBelow_eq, List.mem_flatMap]
  constructor
  · rintro ⟨e, he, hf⟩
    obtain ⟨hscript, hlies⟩ := (hentries e he).1 hf
    obtain ⟨name, hmem, hshown⟩ := FileTree.mem_walked he
    exact ⟨hscript, .entry hmem (Option.filter_eq_some_iff.1 hshown).1 hlies⟩
  · rintro ⟨hscript, hlies⟩
    cases hlies with
    | entry hmem hshown hlies =>
      have he := h.mem_walked hmem hshown hlies hscript
      exact ⟨_, he, (hentries _ he).2 ⟨hscript, hlies⟩⟩

theorem mem_gather {tree : FileTree} (h : tree.Proper) {dir name : Text} (hdir : Visible dir)
    (hname : IsPart name) {f : BundledFile} :
    f ∈ Bundle.gather name (join dir name) tree ↔
      isScriptPath f.path = true ∧ LiesAt (join dir name) tree f.path f.content := by
  induction h using walked_induction generalizing dir name with
  | file content =>
    obtain ⟨path, contents⟩ := f
    rw [Bundle.gather, ← isScriptPath_join hdir hname, liesAt_file_iff]
    constructor
    · intro hf
      split at hf
      next hscript =>
        obtain ⟨rfl, rfl⟩ := BundledFile.mk.inj (List.mem_singleton.1 hf)
        exact ⟨hscript, rfl, rfl⟩
      next => cases hf
    · rintro ⟨hscript, rfl, rfl⟩
      rw [if_pos hscript]
      exact List.mem_singleton_self _
  | folder h ih =>
    rw [Bundle.gather]
    exact h.mem_gatherBelow_of_entries fun e he => ih e he (hdir.join hname) (h.isPart he)

/-- **A walk finds a file if its path is one of a script file.** -/
theorem mem_gatherBelow (h : (FileTree.folder entries).Proper) {f : BundledFile} :
    f ∈ Bundle.gatherBelow [] entries ↔
      isScriptPath f.path = true ∧ LiesAt [] (.folder entries) f.path f.content :=
  h.mem_gatherBelow_of_entries fun _ he =>
    (h.of_walked he).mem_gather visible_nil (h.isPart he)

/-- A walk finds no two files at one path if it does not at any of the entries. -/
theorem nodup_gatherBelow (h : (FileTree.folder entries).Proper) (hpath : Visible path)
    (hentries : ∀ e ∈ walked entries,
      ((Bundle.gather e.1 (join path e.1) e.2).map (·.path)).Nodup) :
    ((Bundle.gatherBelow path entries).map (·.path)).Nodup := by
  have hbelow : ∀ e ∈ walked entries, ∀ q ∈ (Bundle.gather e.1 (join path e.1) e.2).map (·.path),
      AtOrBelow (join path e.1) q := by
    intro e he q hq
    obtain ⟨f, hf, rfl⟩ := List.mem_map.1 hq
    have hlies := (((h.of_walked he).mem_gather hpath (h.isPart he)).1 hf).2
    exact hlies.atOrBelow (join_ne_nil (h.isPart he))
  rw [gatherBelow_eq, List.map_flatMap, List.nodup_flatMap]
  refine ⟨hentries, ?_⟩
  -- what lies at or below two entries has two names
  refine (List.pairwise_map.1 h.nodup_walked).imp_of_mem fun {e e'} he he' hne => ?_
  intro q hq hq'
  exact hne ((hbelow e he q hq).eq_of_join (hbelow e' he' q hq') (h.isPart he) (h.isPart he'))

theorem nodup_gather {tree : FileTree} (h : tree.Proper) {dir name : Text} (hdir : Visible dir)
    (hname : IsPart name) : ((Bundle.gather name (join dir name) tree).map (·.path)).Nodup := by
  induction h using walked_induction generalizing dir name with
  | file content =>
    rw [Bundle.gather]
    split <;> simp
  | folder h ih =>
    rw [Bundle.gather]
    exact h.nodup_gatherBelow (hdir.join hname) fun e he =>
      ih e he (hdir.join hname) (h.isPart he)

end Proper

/-! ### Entries in another order -/

/-- The same tree, whose folders hand out their entries in other orders. -/
inductive Reordered : FileTree → FileTree → Prop
  /-- Nothing is changed. -/
  | refl (tree : FileTree) : Reordered tree tree
  /-- The entries of the folder come in another order. -/
  | entries {entries entries' : List (FileName × FileTree)} :
      entries.Perm entries' → Reordered (.folder entries) (.folder entries')
  /-- Something is changed within one of the entries. -/
  | within {front back : List (FileName × FileTree)} {name : FileName} {tree tree' : FileTree} :
      Reordered tree tree' → Reordered (.folder (front ++ (name, tree) :: back))
        (.folder (front ++ (name, tree') :: back))
  /-- One change follows another. -/
  | trans {tree tree' tree'' : FileTree} :
      Reordered tree tree' → Reordered tree' tree'' → Reordered tree tree''

/-- A walk finds the same files in whatever order the entries come. -/
theorem Reordered.perm_gather {tree tree' : FileTree} (h : tree.Reordered tree')
    (name path : Text) : (Bundle.gather name path tree).Perm (Bundle.gather name path tree') := by
  induction h generalizing name path with
  | refl => exact .refl _
  | entries hperm =>
    rw [Bundle.gather, Bundle.gather, gatherBelow_eq, gatherBelow_eq]
    exact (hperm.filterMap _).flatMap_right _
  | @within front back own tree tree' _ ih =>
    simp only [Bundle.gather, gatherBelow_eq, walked, List.filterMap_append, List.filterMap_cons]
    cases shown? own with
    | none => exact .refl _
    | some shown =>
      simp only [Option.map_some, List.flatMap_append, List.flatMap_cons]
      exact ((ih shown (join path shown)).append_right _).append_left _
  | trans _ _ ih ih' => exact (ih name path).trans (ih' name path)

end FileTree

namespace Bundle

/-! ### The table -/

/-- The files of a bundle are those that a walk finds, sorted. -/
theorem files_eq (root : FileTree) :
    files root = (gather [] [] root).mergeSort fun a b => (compare a.path b.path).isLE := by
  cases root with
  | file content =>
    have hname : isScriptName [] = false := by decide
    simp [files, gather, hname]
  | folder entries => rw [files, gather]

theorem compare_swap (s t : Text) : compare t s = (compare s t).swap :=
  Std.OrientedCmp.eq_swap

theorem pairwise_files (root : FileTree) :
    (files root).Pairwise fun a b => (compare a.path b.path).isLE = true := by
  rw [files_eq]
  refine List.pairwise_mergeSort (fun a b c => Std.TransCmp.isLE_trans) (fun a b => ?_) _
  rw [compare_swap a.path b.path]
  cases compare a.path b.path <;> rfl

/-- No two files of a bundle have the same path. -/
theorem nodup_files {root : FileTree} (hroot : root.Proper) :
    ((files root).map (·.path)).Nodup := by
  cases root with
  | file content => simp [files]
  | folder entries =>
    rw [files, ((List.mergeSort_perm _ _).map _).nodup_iff]
    exact hroot.nodup_gatherBelow FileTree.visible_nil fun e he =>
      (hroot.of_walked he).nodup_gather FileTree.visible_nil (hroot.isPart he)

/-- The files of a bundle are the script files that lie in the folder. -/
theorem mem_files {root : FileTree} (hroot : root.Proper) {f : BundledFile} :
    f ∈ files root ↔ isScriptPath f.path = true ∧ root.LiesAt [] f.path f.content := by
  cases root with
  | file content =>
    -- a file that is the root itself has no name
    have hroot : isScriptPath [] = false := by decide
    simp only [files, List.not_mem_nil, FileTree.liesAt_file_iff, false_iff]
    rintro ⟨hscript, hpath, -⟩
    rw [hpath, hroot] at hscript
    cases hscript
  | folder entries => rw [files, List.mem_mergeSort, hroot.mem_gatherBelow]

/-- The paths of a bundle are sorted, byte by byte. -/
theorem pairwise_toUtf8 {root : FileTree} (hroot : root.Proper) :
    ((files root).map fun f => Text.toUtf8 f.path).Pairwise (· < ·) := by
  rw [List.pairwise_map]
  refine (pairwise_files root).imp₂ (fun a b hle hne => ?_)
    (List.pairwise_map.1 (nodup_files hroot))
  refine Text.toUtf8_lt ?_
  cases hcompare : compare a.path b.path with
  | lt => rfl
  | eq => exact absurd (Std.LawfulEqCmp.eq_of_compare hcompare) hne
  | gt => simp [hcompare] at hle

/-- Whatever order the entries come in, the bundle has the same files in the same order. -/
theorem files_reordered {root root' : FileTree} (hroot : root.Proper) (h : root.Reordered root') :
    files root' = files root := by
  have hperm : (files root').Perm (files root) := by
    rw [files_eq, files_eq]
    exact (List.mergeSort_perm _ _).trans
      ((h.perm_gather [] []).symm.trans (List.mergeSort_perm _ _).symm)
  refine hperm.eq_of_pairwise (fun a b ha hb hab hba => ?_) (pairwise_files root')
    (pairwise_files root)
  have hpath : a.path = b.path := by
    rw [compare_swap a.path b.path] at hba
    cases hcompare : compare a.path b.path with
    | eq => exact Std.LawfulEqCmp.eq_of_compare hcompare
    | lt => simp [hcompare] at hba
    | gt => simp [hcompare] at hab
  exact List.inj_on_of_nodup_map (nodup_files hroot) (hperm.mem_iff.1 ha) hb hpath

theorem mem_scripts {root : FileTree} (hroot : root.Proper) {f : ScriptFile} :
    f ∈ scripts root ↔
      isScriptPath f.path = true ∧ root.LiesAt [] f.path (Text.toUtf8 f.text) := by
  rw [scripts, List.mem_filterMap]
  constructor
  · rintro ⟨b, hb, htext⟩
    obtain ⟨text, hcontent, rfl⟩ := Option.map_eq_some_iff.1 htext
    rw [← Text.ofUtf8?_eq_some_iff.1 hcontent]
    exact (mem_files hroot).1 hb
  · rintro ⟨hscript, hlies⟩
    refine ⟨⟨f.path, Text.toUtf8 f.text⟩, (mem_files hroot).2 ⟨hscript, hlies⟩, ?_⟩
    rw [Text.ofUtf8?_toUtf8]
    rfl

/-- What a row of the written table lists: the path of a file, and where its contents are. -/
def entry? (row : Text) : Option (Text × Text) := do
  let row ← Text.after? "    (".toList row
  let (path, row) ← Text.literal? row
  let row ← Text.after? ", include_str!(".toList row
  let (place, row) ← Text.literal? row
  if row = ")),".toList then some (path, place) else none

/-- A row is read back. -/
theorem entry?_row (folder : Text) (f : BundledFile) :
    entry? (row folder f) = some (f.path, folder ++ '/' :: f.path) := by
  have hfront (rest : Text) : Text.after? "    (".toList ("    (".toList ++ rest) = some rest :=
    Text.after?_eq_some_iff.2 rfl
  have hmiddle (rest : Text) :
      Text.after? ", include_str!(".toList (", include_str!(".toList ++ rest) = some rest :=
    Text.after?_eq_some_iff.2 rfl
  unfold entry? row
  simp only [List.append_assoc, Option.bind_eq_bind, hfront, hmiddle, Option.bind_some,
    Text.literal?_quoted, if_true]

/-- **A bundle lists exactly the scripts of its folder.** In a tree that a disk can hold, the files
of the bundle are those that lie at the path of a script file, and no other, and their paths go up
in the order of their bytes, so that none comes twice. The table that is written is a row that opens
it, a row for each file of the bundle in this order, which is read back as the path of the file and
where the file is in the folder, and a row that closes it; and it is the same in whatever order the
folders hand out their entries. The scripts that are loaded from it are the script files that are
texts, and the load, which looks at the paths again, passes none of them over. -/
theorem files_listed {root : FileTree} (hroot : root.Proper) :
    (∀ path content, ⟨path, content⟩ ∈ files root ↔
      isScriptPath path = true ∧ root.LiesAt [] path content) ∧
    ((files root).map fun f => Text.toUtf8 f.path).Pairwise (· < ·) ∧
    (∀ folder, ∃ rows,
      source folder root =
        "pub static MACRO_FILES: &[(&str, &str)] = &[".toList :: rows ++ ["];".toList] ∧
      rows.map entry? = (files root).map fun f => some (f.path, folder ++ '/' :: f.path)) ∧
    (∀ root', root.Reordered root' → ∀ folder, source folder root' = source folder root) ∧
    (∀ path text, ⟨path, text⟩ ∈ scripts root ↔
      isScriptPath path = true ∧ root.LiesAt [] path (Text.toUtf8 text)) ∧
    (scripts root).filter (fun f => isScriptPath f.path) = scripts root := by
  refine ⟨fun path content => mem_files hroot, pairwise_toUtf8 hroot, fun folder => ?_,
    fun root' h folder => ?_, fun path text => mem_scripts hroot, ?_⟩
  · refine ⟨(files root).map (row folder), rfl, ?_⟩
    rw [List.map_map]
    exact List.map_congr_left fun f _ => entry?_row folder f
  · rw [source, source, files_reordered hroot h]
  · exact List.filter_eq_self.2 fun f hf => ((mem_scripts hroot).1 hf).1

/-- A folder whose name ends like that of a script file, with a file in capital letters and a
hidden one. -/
def cellar : List (FileName × FileTree) :=
  [(Text.toUtf8 "x.M".toList, .file []), (Text.toUtf8 ".y.m".toList, .file [])]

/-- That folder, and a file whose name has two dots. -/
def house : FileTree :=
  .folder [(Text.toUtf8 "b.m".toList, .folder cellar),
    (Text.toUtf8 "a.m.m".toList, .file [])]

/-- The same, with the entries of both folders in the other order. -/
def turned : FileTree :=
  .folder [(Text.toUtf8 "a.m.m".toList, .file []),
    (Text.toUtf8 "b.m".toList, .folder cellar.reverse)]

theorem house_proper : house.Proper := by
  have hcellar : (FileTree.folder cellar).Proper := by
    refine .folder (by decide) (by simp [cellar, Text.ofUtf8?_toUtf8]) fun e he => ?_
    rcases List.mem_cons.1 he with rfl | he
    · exact .file []
    · obtain rfl := List.mem_singleton.1 he
      exact .file []
  refine .folder (by decide) (by simp [Text.ofUtf8?_toUtf8]) fun e he => ?_
  rcases List.mem_cons.1 he with rfl | he
  · exact hcellar
  · obtain rfl := List.mem_singleton.1 he
    exact .file []

theorem house_reordered : house.Reordered turned :=
  .trans (.entries (.swap ..))
    (@FileTree.Reordered.within [_] [] _ _ _ (.entries (List.reverse_perm _).symm))

theorem files_house : files house = [⟨"a.m.m".toList, []⟩, ⟨"b.m/x.M".toList, []⟩] := by
  have hupper : isScriptName "x.M".toList = true := by decide
  have hdots : isScriptName "a.m.m".toList = true := by decide
  have hle : ¬(compare "b.m/x.M".toList "a.m.m".toList).isLE = true := by decide
  have hfiles : files house = [⟨"b.m/x.M".toList, []⟩, ⟨"a.m.m".toList, []⟩].mergeSort
      fun a b => (compare a.path b.path).isLE := by
    simp only [files, house, cellar, gatherBelow, gather, Text.ofUtf8?_toUtf8, hupper, hdots]
    rfl
  exact hfiles.trans ((mergeSort_pair ..).trans (if_neg hle))

theorem files_listed_house :
    house.Proper ∧ house.Reordered turned ∧
      ⟨"b.m/x.M".toList, []⟩ ∈ files house ∧ ⟨"b.m/.y.m".toList, []⟩ ∉ files house ∧
      ((files house).map fun f => Text.toUtf8 f.path).Pairwise (· < ·) ∧
      (∃ rows,
        source "m".toList house =
          "pub static MACRO_FILES: &[(&str, &str)] = &[".toList :: rows ++ ["];".toList] ∧
        rows.map entry? = [some ("a.m.m".toList, "m/a.m.m".toList),
          some ("b.m/x.M".toList, "m/b.m/x.M".toList)]) ∧
      ∀ folder, source folder turned = source folder house := by
  obtain ⟨hmem, hsorted, htable, hsource, -, -⟩ := files_listed house_proper
  have hlies : house.LiesAt [] "b.m/x.M".toList [] :=
    .entry List.mem_cons_self (Text.ofUtf8?_toUtf8 _)
      (.entry List.mem_cons_self (Text.ofUtf8?_toUtf8 _) .file)
  have hshown : isScriptPath "b.m/x.M".toList = true := by decide
  have hhidden : isScriptPath "b.m/.y.m".toList = false := by decide
  obtain ⟨rows, hrows, hentries⟩ := htable "m".toList
  rw [files_house] at hentries
  refine ⟨house_proper, house_reordered, (hmem _ _).2 ⟨hshown, hlies⟩, fun hlisted => ?_, hsorted,
    ⟨rows, hrows, hentries⟩, hsource turned house_reordered⟩
  have hscript := ((hmem _ _).1 hlisted).1
  rw [hhidden] at hscript
  cases hscript

end Bundle

end PadScript
