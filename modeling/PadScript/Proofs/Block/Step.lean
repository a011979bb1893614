import PadScript.Proofs.Library.Lookup

/-!
# What a row does

`Reading.Adds` says once what reading a row can do: it is a marker, a line or a default, goes into
the open block, or closes it. From this come the facts about reading many rows.

* `Reading.adds_addRow` : **reading a row does one of these**, and a block is given no more than the
  row, without the brace that it begins with.
* `Reading.exists_segments` : every entry is the segment before the first marker, or that of a
  marker with more rows behind it.
* `Reading.first_mem_entries` : the segment before the first marker is yielded.
-/

namespace PadScript

namespace Entry

/-- The name of what was read. -/
def name : Entry → Text
  | named name _ => name
  | block name _ => name

/-- The track of what was read. -/
def track : Entry → Track
  | named _ script => script.track
  | block _ track => track

end Entry

namespace Origin

@[simp] theorem name_entry (o : Origin) (name : Text) (script : Script) :
    (o.entry name script).name = name := by
  cases o with
  | file tag => rfl
  | block own => simp only [entry]; split <;> rfl

@[simp] theorem track_entry (o : Origin) (name : Text) (script : Script) :
    (o.entry name script).track = script.track := by
  cases o with
  | file tag => rfl
  | block own => simp only [entry]; split <;> rfl

end Origin

namespace Row

/-- The row that opens the segment of a name. -/
def marker (name : Text) : Text := '<' :: name ++ ['>']

theorem marked?_eq_some_iff {row name : Text} : marked? row = some name ↔ row = marker name := by
  unfold marked?
  split
  next rest => rw [Text.before?_eq_some_iff, marker, List.cons_append, List.cons.injEq,
    eq_self, true_and]
  next hother =>
    refine ⟨nofun, ?_⟩
    rintro rfl
    exact absurd rfl (hother _)

/-- A row that leaves the block open is all inside it. -/
theorem inner_scanBlock {depth : Nat} {row : Text} (h : (scanBlock depth row).suffix? = none) :
    (scanBlock depth row).inner = row := by
  induction row generalizing depth with
  | nil => simp [scanBlock]
  | cons c rest ih =>
    unfold scanBlock at h ⊢
    split at h
    · simp_all
    · simp at h
    next => simp_all

/-- A row that closes the block is cut at a brace. -/
theorem eq_append_of_scanBlock {depth : Nat} {row suffix : Text}
    (h : (scanBlock depth row).suffix? = some suffix) :
    row = (scanBlock depth row).inner ++ '}' :: suffix := by
  induction row generalizing depth with
  | nil => simp [scanBlock] at h
  | cons c rest ih =>
    unfold scanBlock at h ⊢
    split at h
    · simp at h
    · simp_all
    next heq =>
      obtain ⟨rfl, rfl⟩ := List.cons.inj heq
      exact congrArg (c :: ·) (ih h)

/-- The row, if it is no marker, or what stands behind the brace that it begins with: what an open
block may be given of a row. -/
def Enters (row part : Text) : Prop := (part = row ∧ marked? row = none) ∨ row = '{' :: part

end Row

namespace Reading

/-- The rows of the open block. -/
def openRows (r : Reading) : List Text := (r.block?.map (·.rows)).getD []

/-- What reading a row can do. -/
inductive Adds (o : Origin) (r : Reading) (row : Text) : Reading → Prop
  /-- The row is a marker. -/
  | mark {name : Text} : row = Row.marker name → Adds o r row (r.mark o name)
  /-- The row is a line. -/
  | line : Row.marked? row = none → Text.after? ['{'] row = none → Row.declaration? row = none →
      r.block? = none → Adds o r row { r with lines := r.lines ++ [row] }
  /-- The row is a default. -/
  | declare {defaults : Bindings} : Row.marked? row = none → r.block? = none →
      Adds o r row { r with defaults := defaults }
  /-- The row goes into a block that stays open. -/
  | inside {b : OpenBlock} : Row.marked? row = none →
      (∀ x ∈ b.rows, x ∈ r.openRows ∨ Row.Enters row x) → Adds o r row { r with block? := some b }
  /-- The row closes a block, to which it gives at most the last row. -/
  | close {rows : List Text} {suffix : Text} : Row.marked? row = none →
      (∀ x ∈ rows.dropLast, x ∈ r.openRows) →
      (∀ x ∈ rows, x ∈ r.openRows ∨ ∃ rest, Row.Enters row (x ++ rest)) →
      Adds o r row (r.closeBlock rows suffix)

variable {o : Origin} {r : Reading} {row : Text}

/-- A block without rows leaves nothing behind. -/
theorem closeBlock_nil (r : Reading) (suffix : Text) :
    r.closeBlock [] suffix = { r with block? := none } := rfl

/-- A block with rows becomes a jump, and waits. -/
theorem closeBlock_of_ne_nil {rows : List Text} (h : rows ≠ []) (r : Reading) (suffix : Text) :
    r.closeBlock rows suffix =
      { r with
        block? := none
        counter := r.counter + 1
        lines := r.lines ++ ['[' :: generatedName r.counter ++ ']' :: suffix]
        pending := ⟨.block (generatedName r.counter), rows⟩ :: r.pending } := by
  simp [closeBlock, h]

theorem adds_addToBlock {b : OpenBlock} {part : Text} (hrow : Row.marked? row = none)
    (hb : ∀ x ∈ b.rows, x ∈ r.openRows) (hpart : Row.Enters row part) :
    Adds o r row (r.addToBlock b part) := by
  simp only [addToBlock]
  split
  next suffix hsuffix =>
    have hcut := Row.eq_append_of_scanBlock hsuffix
    have hcuts : Row.Enters row ((Row.scanBlock b.depth part).inner ++ '}' :: suffix) :=
      hcut ▸ hpart
    split
    · exact .close hrow (fun x hx => hb x (List.dropLast_subset _ hx)) fun x hx => .inl (hb x hx)
    · refine .close hrow (fun x hx => hb x (by simpa using hx)) fun x hx => ?_
      rcases List.mem_append.1 hx with hx | hx
      · exact .inl (hb x hx)
      · rw [List.mem_singleton] at hx
        exact .inr ⟨_, hx ▸ hcuts⟩
  next hsuffix =>
    have hinner := Row.inner_scanBlock hsuffix
    refine .inside hrow fun x hx => ?_
    split at hx
    · exact .inl (hb x hx)
    · rcases List.mem_append.1 hx with hx | hx
      · exact .inl (hb x hx)
      · rw [List.mem_singleton, hinner] at hx
        exact .inr (hx ▸ hpart)

/-- **What reading a row does.** -/
theorem adds_addRow (o : Origin) (r : Reading) (row : Text) : Adds o r row (r.addRow o row) := by
  unfold addRow
  split
  next name hmark => exact .mark (Row.marked?_eq_some_iff.1 hmark)
  next b hmark hblock =>
    have hrows : ∀ x ∈ b.rows, x ∈ r.openRows := fun x hx => by simpa [openRows, hblock] using hx
    exact adds_addToBlock hmark hrows (.inl ⟨rfl, hmark⟩)
  next rest hmark _ hopening =>
    exact adds_addToBlock hmark (by simp) (.inr (Text.after?_eq_some_iff.1 hopening))
  next hmark hblock hopening =>
    unfold addLine
    split
    · split
      · exact .declare hmark hblock
      · exact @Adds.declare o r row r.defaults hmark hblock
    next hdeclared => exact .line hmark hopening hdeclared hblock

/-! ### Segments -/

/-- The end of a segment yields it if it has a name and lines. -/
theorem endSegment_of_lines {name : Text} (hname : r.name? = some name) (hlines : r.lines ≠ []) :
    (r.endSegment o).entries = r.entries ++ [o.entry name ⟨⟨r.lines⟩, r.defaults⟩] := by
  simp [endSegment, hname, hlines]

/-- The end of a segment yields at most that. -/
theorem exists_endSegment (o : Origin) (r : Reading) :
    ∃ own, (r.endSegment o).entries = r.entries ++ own ∧ ∀ e ∈ own, r.lines ≠ [] ∧
      ∃ name, r.name? = some name ∧ e = o.entry name ⟨⟨r.lines⟩, r.defaults⟩ := by
  by_cases hempty : r.name? = none ∨ r.lines = []
  · refine ⟨[], ?_, by simp⟩
    rcases hempty with h | h
    · simp [endSegment, h]
    · cases hname : r.name? <;> simp [endSegment, hname, h]
  · rw [not_or] at hempty
    obtain ⟨name, hname⟩ := Option.ne_none_iff_exists'.1 hempty.1
    refine ⟨_, endSegment_of_lines hname hempty.2, fun e he => ⟨hempty.2, name, hname, ?_⟩⟩
    exact List.mem_singleton.1 he

theorem addRow_marker (o : Origin) (r : Reading) (name : Text) :
    r.addRow o (Row.marker name) = r.mark o name := by
  simp [addRow, Row.marked?_eq_some_iff.2 rfl]

/-- A row that is no marker ends no segment. -/
theorem same_segment (h : Row.marked? row = none) (o : Origin) (r : Reading) :
    (r.addRow o row).name? = r.name? ∧ (r.addRow o row).entries = r.entries := by
  have hadds := adds_addRow o r row
  generalize r.addRow o row = s at hadds ⊢
  cases hadds with
  | mark hmark => simp [Row.marked?_eq_some_iff.2 hmark] at h
  | line => exact ⟨rfl, rfl⟩
  | declare => exact ⟨rfl, rfl⟩
  | inside => exact ⟨rfl, rfl⟩
  | close =>
    simp only [closeBlock]
    split <;> exact ⟨rfl, rfl⟩

/-- The lines that come together before the first marker among rows. -/
def firstLines (o : Origin) (r : Reading) (rows : List Text) : List Text :=
  ((rows.takeWhile fun row => (Row.marked? row).isNone).foldl (addRow o) r).lines

theorem firstLines_marker (name : Text) (rest : List Text) :
    firstLines o r (Row.marker name :: rest) = r.lines := by
  simp [firstLines, Row.marked?_eq_some_iff.2 rfl]

theorem firstLines_cons (h : Row.marked? row = none) (rest : List Text) :
    firstLines o r (row :: rest) = firstLines o (r.addRow o row) rest := by
  simp [firstLines, h]

/-- The entry of a segment among rows: of that before the first marker, under the name that there
is, or of that of a marker with more rows behind it. -/
structure IsSegment (o : Origin) (r : Reading) (rows : List Text) (e : Entry) : Prop where
  /-- It has lines. -/
  lines : e.track.lines ≠ []
  /-- Its kind is up to where the rows come from. -/
  made : ∃ script, e = o.entry e.name script
  /-- It begins with the rows or with a marker. -/
  start : (r.name? = some e.name ∧ e.track.lines = firstLines o r rows) ∨
    ∃ name, Row.marker name ∈ rows.dropLast ∧ e.name = o.qualify name

theorem isSegment_entry {rows : List Text} {name : Text} (hname : r.name? = some name)
    (hlines : r.lines ≠ []) (hfirst : firstLines o r rows = r.lines) :
    IsSegment o r rows (o.entry name ⟨⟨r.lines⟩, r.defaults⟩) where
  lines := by rwa [Origin.track_entry]
  made := ⟨⟨⟨r.lines⟩, r.defaults⟩, by rw [Origin.name_entry]⟩
  start := .inl ⟨by rwa [Origin.name_entry], by rw [Origin.track_entry, hfirst]⟩

theorem mem_dropLast_cons {x y : Text} {rows : List Text} (h : x ∈ rows.dropLast) :
    x ∈ (y :: rows).dropLast := by
  cases rows with
  | nil => simp at h
  | cons => exact List.mem_cons_of_mem _ h

/-- **Every entry that rows yield is a segment among them.** -/
theorem exists_segments (o : Origin) (rows : List Text) (r : Reading) :
    ∃ more, ((rows.foldl (addRow o) r).endSegment o).entries = r.entries ++ more ∧
      ∀ e ∈ more, IsSegment o r rows e := by
  induction rows generalizing r with
  | nil =>
    obtain ⟨own, hentries, hown⟩ := exists_endSegment o r
    refine ⟨own, hentries, fun e he => ?_⟩
    obtain ⟨hlines, name, hname, rfl⟩ := hown e he
    exact isSegment_entry hname hlines rfl
  | cons row rest ih =>
    obtain ⟨more, hentries, hmore⟩ := ih (r.addRow o row)
    rw [List.foldl_cons, hentries]
    cases hrow : Row.marked? row with
    | none =>
      obtain ⟨hname, hsame⟩ := same_segment hrow o r
      refine ⟨more, by rw [hsame], fun e he => ⟨(hmore e he).lines, (hmore e he).made, ?_⟩⟩
      rw [firstLines_cons hrow, ← hname]
      exact (hmore e he).start.imp_right fun ⟨name, hmem, heq⟩ =>
        ⟨name, mem_dropLast_cons hmem, heq⟩
    | some name =>
      obtain rfl := Row.marked?_eq_some_iff.1 hrow
      rw [addRow_marker] at hmore ⊢
      obtain ⟨own, hown, hall⟩ := exists_endSegment o r
      have hmark : (r.mark o name).entries = r.entries ++ own := hown
      refine ⟨own ++ more, by rw [hmark, List.append_assoc], fun e he => ?_⟩
      rcases List.mem_append.1 he with he | he
      · obtain ⟨hlines, first, hfirst, rfl⟩ := hall e he
        exact isSegment_entry hfirst hlines (firstLines_marker name rest)
      · refine ⟨(hmore e he).lines, (hmore e he).made, .inr ?_⟩
        rcases (hmore e he).start with ⟨hname, hlines⟩ | ⟨later, hmem, heq⟩
        · -- the lines of the marker's segment stand behind it, so it is not the last row
          have hrest : rest ≠ [] := by
            rintro rfl
            exact (hmore e he).lines hlines
          refine ⟨name, ?_, (Option.some.inj hname).symm⟩
          rw [List.dropLast_cons_of_ne_nil hrest]
          exact List.mem_cons_self
        · exact ⟨later, mem_dropLast_cons hmem, heq⟩

/-- The segment before the first marker is yielded if it has a name and lines. -/
theorem first_mem_entries {name : Text} (rows : List Text) (hname : r.name? = some name)
    (hlines : firstLines o r rows ≠ []) :
    ∃ defaults, o.entry name ⟨⟨firstLines o r rows⟩, defaults⟩ ∈
      ((rows.foldl (addRow o) r).endSegment o).entries := by
  induction rows generalizing r with
  | nil =>
    refine ⟨r.defaults, ?_⟩
    rw [List.foldl_nil, endSegment_of_lines hname hlines]
    exact List.mem_append_right _ List.mem_cons_self
  | cons row rest ih =>
    cases hrow : Row.marked? row with
    | none =>
      rw [firstLines_cons hrow] at hlines ⊢
      exact ih ((same_segment hrow o r).1.trans hname) hlines
    | some next =>
      obtain rfl := Row.marked?_eq_some_iff.1 hrow
      rw [firstLines_marker] at hlines ⊢
      obtain ⟨more, hentries, -⟩ := exists_segments o rest (r.mark o next)
      refine ⟨r.defaults, ?_⟩
      rw [List.foldl_cons, addRow_marker, hentries]
      refine List.mem_append_left _ ?_
      change _ ∈ (r.endSegment o).entries
      rw [endSegment_of_lines hname hlines]
      exact List.mem_append_right _ List.mem_cons_self

end Reading

end PadScript
