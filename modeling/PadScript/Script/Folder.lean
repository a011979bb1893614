import PadScript.Script.Library
import PadScript.Text.Utf8

/-!
# Scripts in a folder

A `Folder` is a tree of files as a disk holds it: names are bytes, and so are the contents.
`Folder.scripts` finds the script files in it, in the order of their names at every level. Entries
whose names are hidden or are not UTF-8 are passed over, and so are files that are not UTF-8.
-/

namespace PadScript

/-- The name of an entry. -/
abbrev FileName := List UInt8

/-- An entry of a folder. -/
inductive FileTree where
  /-- A file, with its contents. -/
  | file (content : List UInt8)
  /-- A folder, with its entries in any order. -/
  | folder (entries : List (FileName × FileTree))

namespace FileTree

/-- The order of names: byte by byte. -/
def nameLe (a b : FileName) : Bool := !(b < a : Bool)

/-- The path of an entry in a folder. -/
def join (folder name : Text) : Text := if folder.isEmpty then name else folder ++ '/' :: name

mutual

/-- The script files at or below an entry with the given path. -/
def scripts (path : Text) : FileTree → List ScriptFile
  | file content =>
    match Text.ofUtf8? content with
    | some text => if isScriptPath path then [⟨path, text⟩] else []
    | none => []
  | folder entries =>
    ((scriptsBelow path entries).mergeSort fun a b => nameLe a.1 b.1).flatMap (·.2)

/-- The script files of each entry of a folder, beside its name. -/
def scriptsBelow (path : Text) : List (FileName × FileTree) → List (FileName × List ScriptFile)
  | [] => []
  | (name, tree) :: rest =>
    match Text.ofUtf8? name with
    | some shown =>
      if shown.head? = some '.' then scriptsBelow path rest
      else (name, scripts (join path shown) tree) :: scriptsBelow path rest
    | none => scriptsBelow path rest

end

end FileTree

end PadScript
