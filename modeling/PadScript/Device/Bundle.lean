import PadScript.Script.Folder
import PadScript.Text.Quote

/-!
# The bundle of scripts

A device has no disk, so the scripts of a folder are bundled with it. `Bundle.files` collects them,
in the order of their paths, and `Bundle.source` is the table that carries them, row by row. Entries
whose names are hidden or are not UTF-8 are passed over.
-/

namespace PadScript

/-- A file of a bundle: its path from the root of the bundle, and its contents. -/
structure BundledFile where
  /-- The path. -/
  path : Text
  /-- The contents. -/
  content : List UInt8
deriving DecidableEq, Repr

namespace Bundle

/-- The part of a file's name behind its last dot, if there is anything before the dot. -/
def extension? (name : Text) : Option Text :=
  match Text.cut? '.' name.reverse with
  | some (after, before) => if before.isEmpty then none else some after.reverse
  | none => none

/-- The name is one of a script file. -/
def isScriptName (name : Text) : Bool :=
  match extension? name with
  | some ext => Text.eqIgnoreCase ext ['m']
  | none => false

mutual

/-- The script files at or below an entry with a name and a path. -/
def gather (name path : Text) : FileTree → List BundledFile
  | .file content => if isScriptName name then [⟨path, content⟩] else []
  | .folder entries => gatherBelow path entries

/-- The script files below the entries of a folder with a path. -/
def gatherBelow (path : Text) : List (FileName × FileTree) → List BundledFile
  | [] => []
  | (name, tree) :: rest =>
    match Text.ofUtf8? name with
    | some shown =>
      if shown.head? = some '.' then gatherBelow path rest
      else gather shown (FileTree.join path shown) tree ++ gatherBelow path rest
    | none => gatherBelow path rest

end

/-- The script files of a folder, in the order of their paths. -/
def files (root : FileTree) : List BundledFile :=
  match root with
  | .file _ => []
  | .folder entries => (gatherBelow [] entries).mergeSort fun a b => (compare a.path b.path).isLE

/-- The scripts that a bundle carries. -/
def scripts (root : FileTree) : List ScriptFile :=
  (files root).filterMap fun f => (Text.ofUtf8? f.content).map (⟨f.path, ·⟩)

/-- The row of the table for a file. -/
def row (folder : Text) (f : BundledFile) : Text :=
  "    (".toList ++ Text.quoted f.path ++ ", include_str!(".toList ++
    Text.quoted (folder ++ '/' :: f.path) ++ ")),".toList

/-- The rows of the table that carries the scripts of a folder. -/
def source (folder : Text) (root : FileTree) : List Text :=
  "pub static MACRO_FILES: &[(&str, &str)] = &[".toList :: (files root).map (row folder) ++
    ["];".toList]

end Bundle

end PadScript
