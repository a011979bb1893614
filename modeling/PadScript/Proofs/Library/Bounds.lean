import PadScript.Proofs.Library.Contents
import PadScript.Text.Utf8

/-!
# Reading within bounds

A reader of script files works on bytes: it cuts a marker and what stands behind a closing brace out
of a row by their offsets, counts the depth of braces up and down, and works off a stack of blocks
in a loop. `Library.load?` reads in this way and gives up where a slice would be out of range or in
the middle of a character, where the depth would fall below zero, and where the loop would take more
rounds than it is given.

* `Row.sliceMark?_eq`, `Row.sliceBlock?_eq` : no slice is out of range, and no depth falls below
  zero.
* `Block.readAll?_eq` : **the loop ends after as many rounds as there are characters and braces.**
* `Library.load?_eq` : **a load reads everything without giving up.**
-/

namespace PadScript

/-! ### Slices -/

namespace Text

/-- The text between two offsets in bytes. -/
def slice? (t : Text) (i j : Nat) : Option Text :=
  if i ≤ j ∧ j ≤ (toUtf8 t).length then ofUtf8? (((toUtf8 t).take j).drop i) else none

theorem toUtf8_append (t more : Text) : toUtf8 (t ++ more) = toUtf8 t ++ toUtf8 more :=
  List.flatMap_append

/-- A part of a text stands between the offsets of its ends. -/
theorem slice?_append (before part after : Text) :
    slice? (before ++ part ++ after) (toUtf8 before).length (toUtf8 (before ++ part)).length =
      some part := by
  have hle : (toUtf8 before).length ≤ (toUtf8 (before ++ part)).length ∧
      (toUtf8 (before ++ part)).length ≤ (toUtf8 (before ++ part ++ after)).length := by
    simp only [toUtf8_append, List.length_append]
    omega
  rw [slice?, if_pos hle, toUtf8_append (before ++ part), List.take_left, toUtf8_append,
    List.drop_left, ofUtf8?_toUtf8]

end Text

namespace Row

/-- The text between the angle brackets of a marker row, cut out by its offsets. -/
def sliceMark? (row : Text) : Option (Option Text) :=
  if 2 ≤ (Text.toUtf8 row).length ∧ row.head? = some '<' ∧ row.getLast? = some '>' then
    (Text.slice? row 1 ((Text.toUtf8 row).length - 1)).map some
  else some none

theorem length_toUtf8_marker (name : Text) :
    (Text.toUtf8 (marker name)).length = (Text.toUtf8 (['<'] ++ name)).length + 1 := by
  have hmarker : Text.toUtf8 (marker name) = Text.toUtf8 (['<'] ++ name) ++ Text.toUtf8 ['>'] :=
    Text.toUtf8_append ..
  rw [hmarker, List.length_append]
  rfl

theorem sliceMark?_eq (row : Text) : sliceMark? row = some (marked? row) := by
  unfold sliceMark?
  split
  next h =>
    obtain ⟨hlength, hhead, hlast⟩ := h
    obtain ⟨name, rfl⟩ : ∃ name, row = marker name := by
      obtain ⟨front, rfl⟩ := List.getLast?_eq_some_iff.1 hlast
      cases front with
      | nil => simp [Text.toUtf8, String.utf8EncodeChar] at hlength
      | cons c name =>
        obtain rfl : c = '<' := by simpa using hhead
        exact ⟨name, rfl⟩
    have hslice : Text.slice? (marker name) 1 (Text.toUtf8 (['<'] ++ name)).length = some name :=
      Text.slice?_append ['<'] name ['>']
    rw [length_toUtf8_marker, Nat.add_sub_cancel, hslice, marked?_eq_some_iff.2 rfl]
    rfl
  next h =>
    cases hmarked : marked? row with
    | none => rfl
    | some name =>
      obtain rfl := marked?_eq_some_iff.1 hmarked
      refine absurd ⟨?_, rfl, ?_⟩ h
      · rw [length_toUtf8_marker, Text.toUtf8_append, List.length_append]
        have hopening : (Text.toUtf8 ['<']).length = 1 := rfl
        omega
      · rw [marker, List.getLast?_concat]

/-- The depth below this one. -/
def lower? : (depth : Nat) → Option Nat
  | 0 => none
  | depth + 1 => some depth

/-- Reads the rest of a row inside a block, from an offset on: what stands behind the closing brace
is cut out of the whole row. -/
def sliceBlock? (row : Text) : (offset depth : Nat) → (rest : Text) → Option Scan
  | _, depth, [] => some ⟨[], depth, none⟩
  | offset, depth, c :: rest =>
    if c = '}' ∧ depth = 0 then
      (Text.slice? row (offset + 1) (Text.toUtf8 row).length).map fun suffix => ⟨[], 0, some suffix⟩
    else
      let depth? := if c = '}' then lower? depth else some (if c = '{' then depth + 1 else depth)
      depth?.bind fun depth =>
        (sliceBlock? row (offset + (String.utf8EncodeChar c).length) depth rest).map fun s =>
          { s with inner := c :: s.inner }

/-- A row is read as it is, whatever of it has been read already. -/
theorem sliceBlock?_eq (before : Text) (depth : Nat) (rest : Text) :
    sliceBlock? (before ++ rest) (Text.toUtf8 before).length depth rest =
      some (scanBlock depth rest) := by
  induction rest generalizing before depth with
  | nil => rw [sliceBlock?, scanBlock]
  | cons c rest ih =>
    have hbefore : (Text.toUtf8 before).length + (String.utf8EncodeChar c).length =
        (Text.toUtf8 (before ++ [c])).length := by
      simp [Text.toUtf8]
    have hnext := fun depth => ih (before ++ [c]) depth
    simp only [List.append_assoc, List.singleton_append, ← hbefore] at hnext
    unfold sliceBlock?
    split
    next h =>
      obtain ⟨rfl, rfl⟩ := h
      have hslice := Text.slice?_append (before ++ ['}']) rest []
      simp only [List.append_nil, List.append_assoc, List.singleton_append] at hslice
      have hoffset : (Text.toUtf8 (before ++ ['}'])).length = (Text.toUtf8 before).length + 1 :=
        hbefore.symm
      rw [hoffset] at hslice
      rw [hslice, scanBlock]
      rfl
    next h =>
      have hscan : scanBlock depth (c :: rest) =
          let s := scanBlock
            (if c = '}' then depth - 1 else if c = '{' then depth + 1 else depth) rest
          { s with inner := c :: s.inner } := by
        rw [scanBlock]
        rintro rfl
        simpa using h
      rw [hscan]
      split
      next hclose =>
        obtain ⟨depth, rfl⟩ := Nat.exists_eq_succ_of_ne_zero fun hzero => h ⟨hclose, hzero⟩
        rw [lower?, Option.bind_some, hnext, Option.map_some]
        rfl
      next =>
        rw [Option.bind_some, hnext, Option.map_some]

end Row

/-! ### The loop -/

namespace Reading

/-- A row, or the rest of one, inside a block. -/
def addToBlock? (b : OpenBlock) (row : Text) (r : Reading) : Option Reading :=
  (Row.sliceBlock? row 0 b.depth row).map fun s =>
    let rows := if s.inner.isEmpty then b.rows else b.rows ++ [s.inner]
    match s.suffix? with
    | some suffix => r.closeBlock rows suffix
    | none => { r with block? := some ⟨rows, s.depth⟩ }

theorem addToBlock?_eq (b : OpenBlock) (row : Text) (r : Reading) :
    r.addToBlock? b row = some (r.addToBlock b row) := by
  have hscan : Row.sliceBlock? row 0 b.depth row = some (Row.scanBlock b.depth row) :=
    Row.sliceBlock?_eq [] b.depth row
  rw [addToBlock?, hscan]
  rfl

/-- Reads one row. -/
def addRow? (o : Origin) (r : Reading) (row : Text) : Option Reading :=
  (Row.sliceMark? row).bind fun name? =>
    match name?, r.block?, Text.after? ['{'] row with
    | some name, _, _ => some (r.mark o name)
    | none, some b, _ => r.addToBlock? b row
    | none, none, some rest => r.addToBlock? ⟨[], 0⟩ rest
    | none, none, none => some (r.addLine o row)

theorem addRow?_eq (o : Origin) (r : Reading) (row : Text) :
    r.addRow? o row = some (r.addRow o row) := by
  simp only [addRow?, Row.sliceMark?_eq, Option.bind_some, addToBlock?_eq, addRow]
  cases Row.marked? row with
  | some name => rfl
  | none =>
    cases r.block? with
    | some b => rfl
    | none => cases Text.after? ['{'] row <;> rfl

/-- Reads the rows of a block and ends its last segment. -/
def ofRows? (b : Block) (entries : List Entry) (counter : Nat) (pending : List Block) :
    Option Reading :=
  (b.rows.foldlM (addRow? b.origin)
    ⟨b.origin.name?, [], ∅, none, entries, counter, pending⟩).map (endSegment b.origin)

theorem ofRows?_eq (b : Block) (entries : List Entry) (counter : Nat) (pending : List Block) :
    ofRows? b entries counter pending = some (ofRows b entries counter pending) := by
  have hrows : ∀ (rows : List Text) (r : Reading),
      rows.foldlM (addRow? b.origin) r = some (rows.foldl (addRow b.origin) r) := by
    intro rows
    induction rows with
    | nil => exact fun r => rfl
    | cons row rest ih =>
      intro r
      rw [List.foldlM_cons, addRow?_eq]
      exact ih _
  rw [ofRows?, hrows]
  rfl

end Reading

/-- Reads blocks, the newest first, with those they hold, in a number of rounds at most. -/
def Block.readAll? : (rounds : Nat) → (blocks : List Block) → List Entry → (counter : Nat) →
    Option (List Entry × Nat)
  | _, [], entries, counter => some (entries, counter)
  | 0, _ :: _, _, _ => none
  | rounds + 1, b :: rest, entries, counter =>
    (Reading.ofRows? b entries counter rest).bind fun r =>
      readAll? rounds r.pending r.entries r.counter

/-- **The loop ends after as many rounds as there are characters and braces**, and has read
everything then. -/
theorem Block.readAll?_eq {rounds : Nat} {blocks : List Block} (h : weightOf blocks ≤ rounds)
    (entries : List Entry) (counter : Nat) :
    readAll? rounds blocks entries counter = some (readAll blocks entries counter) := by
  induction rounds generalizing blocks entries counter with
  | zero =>
    cases blocks with
    | nil => rw [readAll?, readAll_nil]
    | cons b rest => simp [weightOf, weight] at h
  | succ rounds ih =>
    cases blocks with
    | nil => rw [readAll?, readAll_nil]
    | cons b rest =>
      have hless := Reading.weight_ofRows b entries counter rest
      rw [readAll?, Reading.ofRows?_eq, Option.bind_some, readAll_cons]
      exact ih (by omega) _ _

namespace Library

/-- Reads a file into the library. -/
def addFile? (rounds : Nat) (l : Library) (f : ScriptFile) : Option Library :=
  (Block.readAll? rounds [f.block] [] l.counter).map fun (entries, counter) =>
    { entries.foldl add l with counter := counter }

/-- Reads the script files among files, in order. -/
def load? (rounds : Nat) (files : List ScriptFile) : Option Library :=
  (files.filter fun f => isScriptPath f.path).foldlM (addFile? rounds) empty

theorem addFile?_eq {rounds : Nat} {f : ScriptFile} (h : f.block.weight ≤ rounds) (l : Library) :
    l.addFile? rounds f = some (l.addFile f) := by
  rw [addFile?, Block.readAll?_eq h]
  rfl

/-- **A load reads everything without giving up**, if it may take as many rounds for each file as
that has characters. -/
theorem load?_eq {rounds : Nat} {files : List ScriptFile}
    (h : ∀ f ∈ files, f.block.weight ≤ rounds) : load? rounds files = some (load files) := by
  have hfiles : ∀ (chosen : List ScriptFile) (l : Library), (∀ f ∈ chosen, f ∈ files) →
      chosen.foldlM (addFile? rounds) l = some (chosen.foldl addFile l) := by
    intro chosen
    induction chosen with
    | nil => exact fun l _ => rfl
    | cons f rest ih =>
      intro l hmem
      rw [List.foldlM_cons, addFile?_eq (h f (hmem f List.mem_cons_self))]
      exact ih _ fun g hg => hmem g (List.mem_cons_of_mem _ hg)
  exact hfiles _ empty fun f hf => (List.mem_filter.1 hf).1

end Library

end PadScript
