import PadScript.Script.Row
import PadScript.Script.Track

/-!
# Segments and blocks

The rows of one file fall into segments, each opened by a marker row, and a segment may hold blocks
between braces. A block that closes becomes a jump to a generated name, and its rows are put on a
stack of `Block`s to be read later in the same way.

`Block.readAll` reads the stack until it is empty. It ends because the braces of a block are not
part of its rows: reading a block trades it for blocks that weigh less together
(`Reading.weight_ofRows`).
-/

namespace PadScript

/-- A named macro: its track and the defaults it declares. -/
structure Script where
  /-- The action lines. -/
  track : Track
  /-- The declared defaults. -/
  defaults : Bindings

/-- What reading a file yields. -/
inductive Entry where
  /-- A macro with a name. -/
  | named (name : Text) (script : Script)
  /-- A block with a generated name. -/
  | block (name : Text) (track : Track)

/-- Where rows come from. -/
inductive Origin where
  /-- A file: its markers are qualified with the tag of the file. -/
  | file (tag : Text)
  /-- A block: its markers are names as they stand, and it declares no defaults. -/
  | block (name : Text)
deriving DecidableEq, Repr

/-- Rows that are to be read. -/
structure Block where
  /-- Where the rows come from. -/
  origin : Origin
  /-- The rows, cleaned and qualified. -/
  rows : List Text
deriving DecidableEq, Repr

/-- The sign that generated names begin with. -/
def generatedSign : Char := '@'

/-- The name of the block with a number. -/
def generatedName (n : Nat) : Text := generatedSign :: Nat.toDigits 16 n

namespace Origin

/-- The name of the segment that rows belong to before any marker. -/
def name? : Origin → Option Text
  | file _ => none
  | block name => some name

/-- The name of the segment that a marker opens. -/
def qualify : Origin → Text → Text
  | file tag, name => tag ++ name
  | block _, name => name

/-- The rows may declare defaults. -/
def declares : Origin → Bool
  | file _ => true
  | block _ => false

/-- What a segment of these rows is. -/
def entry : Origin → Text → Script → Entry
  | file _, name, s => .named name s
  | block _, name, s =>
    if name.head? = some generatedSign then .block name s.track else .named name s

end Origin

/-- A block that is open. -/
structure OpenBlock where
  /-- Its rows so far. -/
  rows : List Text
  /-- The number of braces open inside it. -/
  depth : Nat
deriving DecidableEq, Repr

/-- The state between two rows. -/
structure Reading where
  /-- The name of the segment; none before the first marker of a file. -/
  name? : Option Text
  /-- The lines of the segment so far. -/
  lines : List Text
  /-- The defaults of the segment so far. -/
  defaults : Bindings
  /-- The open block. -/
  block? : Option OpenBlock
  /-- What has been read. -/
  entries : List Entry
  /-- The number of the next block. -/
  counter : Nat
  /-- The blocks to be read, the newest first. -/
  pending : List Block

namespace Reading

/-- The end of a segment: it counts if it has a name and lines. -/
def endSegment (o : Origin) (r : Reading) : Reading :=
  let entries :=
    match r.name? with
    | some name =>
      if r.lines.isEmpty then r.entries
      else r.entries ++ [o.entry name ⟨⟨r.lines⟩, r.defaults⟩]
    | none => r.entries
  { r with name? := none, lines := [], defaults := ∅, entries := entries }

/-- A marker row: the segment ends, an open block is dropped, and a new segment begins. -/
def mark (o : Origin) (name : Text) (r : Reading) : Reading :=
  { r.endSegment o with name? := some (o.qualify name), block? := none }

/-- A row outside any block: a default or a line. -/
def addLine (o : Origin) (row : Text) (r : Reading) : Reading :=
  match Row.declaration? row with
  | some (key, value) =>
    if o.declares then { r with defaults := r.defaults.insert key value } else r
  | none => { r with lines := r.lines ++ [row] }

/-- The end of a block: it becomes a jump, unless it has no rows. -/
def closeBlock (rows : List Text) (suffix : Text) (r : Reading) : Reading :=
  if rows.isEmpty then { r with block? := none }
  else
    let name := generatedName r.counter
    { r with
      block? := none
      counter := r.counter + 1
      lines := r.lines ++ ['[' :: name ++ ']' :: suffix]
      pending := ⟨.block name, rows⟩ :: r.pending }

/-- A row, or the rest of one, inside a block. -/
def addToBlock (b : OpenBlock) (row : Text) (r : Reading) : Reading :=
  let s := Row.scanBlock b.depth row
  let rows := if s.inner.isEmpty then b.rows else b.rows ++ [s.inner]
  match s.suffix? with
  | some suffix => r.closeBlock rows suffix
  | none => { r with block? := some ⟨rows, s.depth⟩ }

/-- Reads one row. -/
def addRow (o : Origin) (r : Reading) (row : Text) : Reading :=
  match Row.marked? row, r.block?, Text.after? ['{'] row with
  | some name, _, _ => r.mark o name
  | none, some b, _ => r.addToBlock b row
  | none, none, some rest => r.addToBlock ⟨[], 0⟩ rest
  | none, none, none => r.addLine o row

/-- Reads the rows of a block and ends its last segment. -/
def ofRows (b : Block) (entries : List Entry) (counter : Nat) (pending : List Block) : Reading :=
  (b.rows.foldl (addRow b.origin)
    ⟨b.origin.name?, [], ∅, none, entries, counter, pending⟩).endSegment b.origin

/-! ### The weight of what is left -/

/-- The number of characters in rows. -/
def charsOf : (rows : List Text) → Nat
  | [] => 0
  | row :: rest => row.length + charsOf rest

end Reading

/-- The weight of a block: its characters and its pair of braces. -/
def Block.weight (b : Block) : Nat := Reading.charsOf b.rows + 1

/-- The weight of blocks together. -/
def Block.weightOf : (blocks : List Block) → Nat
  | [] => 0
  | b :: rest => b.weight + weightOf rest

namespace Reading

/-- The weight of what is still to be read: an open block counts like a closed one. -/
def weight (r : Reading) : Nat :=
  Block.weightOf r.pending + (r.block?.map fun b => charsOf b.rows + 1).getD 0

theorem weight_endSegment (o : Origin) (r : Reading) : (r.endSegment o).weight = r.weight := by
  simp [endSegment, weight]

theorem weight_mark_le (o : Origin) (name : Text) (r : Reading) :
    (r.mark o name).weight ≤ r.weight := by
  simp [mark, endSegment, weight]

theorem weight_addLine (o : Origin) (row : Text) (r : Reading) :
    (r.addLine o row).weight = r.weight := by
  simp only [addLine]
  split
  · split <;> rfl
  · rfl

theorem weight_closeBlock_le (rows : List Text) (suffix : Text) (r : Reading) :
    (r.closeBlock rows suffix).weight ≤ Block.weightOf r.pending + charsOf rows + 1 := by
  simp only [closeBlock]
  split
  · simp only [weight, Option.map_none, Option.getD_none]
    omega
  · simp only [weight, Block.weightOf, Block.weight, Option.map_none, Option.getD_none]
    omega

theorem charsOf_append (rows more : List Text) :
    charsOf (rows ++ more) = charsOf rows + charsOf more := by
  induction rows with
  | nil => simp [charsOf]
  | cons row rest ih => rw [List.cons_append, charsOf, ih, charsOf, Nat.add_assoc]

theorem weight_addToBlock_le (b : OpenBlock) (row : Text) (r : Reading) :
    (r.addToBlock b row).weight ≤
      Block.weightOf r.pending + charsOf b.rows + 1 + row.length := by
  have hrow := Row.length_scanBlock b.depth row
  have hrows : charsOf (if (Row.scanBlock b.depth row).inner.isEmpty then b.rows
      else b.rows ++ [(Row.scanBlock b.depth row).inner]) ≤ charsOf b.rows + row.length := by
    split
    · omega
    · rw [charsOf_append]
      simp only [charsOf] at *
      omega
  simp only [addToBlock]
  split
  · have := weight_closeBlock_le
      (if (Row.scanBlock b.depth row).inner.isEmpty then b.rows
        else b.rows ++ [(Row.scanBlock b.depth row).inner])
    refine Nat.le_trans (this _ _) ?_
    omega
  · simp only [weight, Option.map_some, Option.getD_some]
    omega

theorem weight_addRow_le (o : Origin) (r : Reading) (row : Text) :
    (r.addRow o row).weight ≤ r.weight + row.length := by
  unfold addRow
  split
  · have := weight_mark_le o ‹_› r
    omega
  next b _ hb =>
    have := weight_addToBlock_le b row r
    have hw : r.weight = Block.weightOf r.pending + (charsOf b.rows + 1) := by simp [weight, hb]
    omega
  next rest _ hb hrest =>
    have := weight_addToBlock_le ⟨[], 0⟩ rest r
    have hw : Block.weightOf r.pending ≤ r.weight := Nat.le_add_right ..
    rw [Text.after?_eq_some_iff] at hrest
    simp only [hrest, List.length_append, List.length_singleton]
    simp only [charsOf] at this
    omega
  · rw [weight_addLine]
    omega

/-- Reading a block trades it for blocks that weigh less together. -/
theorem weight_ofRows (b : Block) (entries : List Entry) (counter : Nat) (pending : List Block) :
    Block.weightOf (ofRows b entries counter pending).pending <
      Block.weightOf (b :: pending) := by
  have step : ∀ (rows : List Text) (r : Reading),
      (rows.foldl (addRow b.origin) r).weight ≤ r.weight + charsOf rows := by
    intro rows
    induction rows with
    | nil => simp [charsOf]
    | cons first rest ih =>
      intro r
      have hr := ih (r.addRow b.origin first)
      have hf := weight_addRow_le b.origin r first
      simp only [List.foldl_cons, charsOf] at hr ⊢
      omega
  have h := step b.rows ⟨b.origin.name?, [], ∅, none, entries, counter, pending⟩
  have hle : Block.weightOf (ofRows b entries counter pending).pending ≤
      (ofRows b entries counter pending).weight := Nat.le_add_right ..
  rw [ofRows, weight_endSegment] at hle
  refine Nat.lt_of_le_of_lt (Nat.le_trans hle h) ?_
  simp only [weight, Option.map_none, Option.getD_none, Block.weightOf, Block.weight]
  omega

end Reading

/-- Reads blocks, the newest first, with those they hold, and gives what they yield after the
entries before them, and the number of the next block. -/
def Block.readAll (blocks : List Block) (entries : List Entry) (counter : Nat) :
    List Entry × Nat :=
  match blocks with
  | [] => (entries, counter)
  | b :: rest =>
    let r := Reading.ofRows b entries counter rest
    readAll r.pending r.entries r.counter
termination_by Block.weightOf blocks
decreasing_by exact Reading.weight_ofRows ..

theorem Block.readAll_nil (entries : List Entry) (counter : Nat) :
    readAll [] entries counter = (entries, counter) := by
  rw [readAll]

theorem Block.readAll_cons (b : Block) (rest : List Block) (entries : List Entry) (counter : Nat) :
    readAll (b :: rest) entries counter =
      readAll (Reading.ofRows b entries counter rest).pending
        (Reading.ofRows b entries counter rest).entries
        (Reading.ofRows b entries counter rest).counter := by
  rw [readAll]

end PadScript
