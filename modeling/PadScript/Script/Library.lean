import PadScript.Script.Block

/-!
# The script library

`Library` holds the macros and the blocks of a list of files. `Library.load` reads the files
in order; a macro that is defined again replaces the earlier one.

Whether a path is read is up to `isScriptPath`, and the part of a macro's name before its own is
`tagOf`.
-/

namespace PadScript

/-- The path of a file, `/` between its parts, and its text. -/
structure ScriptFile where
  /-- The path from the root. -/
  path : Text
  /-- The text. -/
  text : Text
deriving DecidableEq, Repr

/-- The ending of the names of script files, in small letters. -/
def scriptEnding : Text := ".m".toList

/-- The path is one of a script file: it has the ending, in either case and behind something else,
and none of its parts is hidden. -/
def isScriptPath (path : Text) : Bool :=
  scriptEnding.length < path.length &&
    Text.eqIgnoreCase (path.drop (path.length - scriptEnding.length)) scriptEnding &&
    (Text.pieces '/' path).all fun part => part.head? != some '.'

/-- The tag of a file: its path without the ending, its parts each followed by a dot. -/
def tagOf (path : Text) : Text :=
  (path.take (path.length - scriptEnding.length)).map (fun c => if c = '/' then '.' else c) ++ ['.']

/-- The macros and blocks of a set of files. -/
structure Library where
  /-- The macros, by name. -/
  named : Std.TreeMap Text Script
  /-- The blocks, by generated name. -/
  blocks : Std.TreeMap Text Track
  /-- The number of the next block. -/
  counter : Nat

namespace Library

/-- The library without macros. -/
def empty : Library := ⟨∅, ∅, 0⟩

/-- Stores an entry, in place of an earlier one of its name. -/
def add (l : Library) : Entry → Library
  | .named name script => { l with named := l.named.insert name script }
  | .block name track => { l with blocks := l.blocks.insert name track }

/-- The rows of a file that count, with its tag on its jumps. -/
def rowsOf (f : ScriptFile) : List Text :=
  ((Text.rows f.text).filterMap Row.clean?).map (Row.qualify (tagOf f.path))

/-- Reads a file into the library. -/
def addFile (l : Library) (f : ScriptFile) : Library :=
  let (entries, counter) := Block.readAll [⟨.file (tagOf f.path), rowsOf f⟩] [] l.counter
  { entries.foldl add l with counter := counter }

/-- Reads the script files among files, in order. -/
def load (files : List ScriptFile) : Library :=
  (files.filter fun f => isScriptPath f.path).foldl addFile empty

/-- The macro of a name. -/
def get? (l : Library) (name : Text) : Option Script := l.named[name]?

/-- The track that a label leads to: that of a macro, or else that of a block. -/
def track? (l : Library) (label : Text) : Option Track :=
  match l.named[label]? with
  | some script => some script.track
  | none => l.blocks[label]?

/-- There is a macro of this name. -/
def contains (l : Library) (name : Text) : Bool := l.named.contains name

/-- The names of the macros, in order. -/
def names (l : Library) : List Text := l.named.keys

/-- The number of macros. -/
def size (l : Library) : Nat := l.named.size

/-- There are no macros. -/
def isEmpty (l : Library) : Bool := l.named.isEmpty

/-- The labels that lead to a track, perhaps more than once. -/
def labels (l : Library) : List Text := l.named.keys ++ l.blocks.keys

/-- A label that leads to a track is one of the library's. -/
theorem mem_labels_of_track? {l : Library} {label : Text} {t : Track}
    (h : l.track? label = some t) : label ∈ l.labels := by
  simp only [track?] at h
  split at h
  next script hs =>
    refine List.mem_append.2 (.inl ?_)
    rw [Std.TreeMap.mem_keys, Std.TreeMap.mem_iff_isSome_getElem?, hs]
    rfl
  next =>
    refine List.mem_append.2 (.inr ?_)
    rw [Std.TreeMap.mem_keys, Std.TreeMap.mem_iff_isSome_getElem?, h]
    rfl

end Library

end PadScript
