import PadScript.Proofs.Block.Visit

/-!
# What a visit leaves behind

The rows of a visit lead from state to state (`Visit.Reads`). What they leave behind are entries and
blocks that wait, and this file says where these come from.

* `Visit.Reads.putAside` : a block that waits was closed by one of the rows, and its rows are rows
  as they were read, but for an opening brace before the first and a cut in the last.
* `Visit.isLine` : the lines of an entry are rows, and jumps to blocks that the visit puts aside.
* `Visit.isSegment` : the entries are the segments among the rows.
* `Block.perm_names_visits` : the blocks that are visited have different names.
-/

namespace PadScript

/-- The names of blocks. -/
def Block.names (blocks : List Block) : List Text := blocks.filterMap (·.origin.name?)

namespace Visit

/-- The state before the first row. -/
def start (v : Visit) : Reading := ⟨v.block.origin.name?, [], ∅, none, [], v.counter, []⟩

/-- These rows lead to this state. -/
inductive Reads (v : Visit) : List Text → Reading → Prop
  /-- There are no rows. -/
  | start : v.Reads [] v.start
  /-- There is one more row. -/
  | row {read : List Text} {r : Reading} (row : Text) :
      v.Reads read r → v.Reads (read ++ [row]) (r.addRow v.block.origin row)

/-- One of these rows closes a block with the inner rows: it becomes a jump with the suffix, to the
name of the number. -/
def Closes (v : Visit) (rows : List Text) (n : Nat) (inner : List Text) (suffix : Text) : Prop :=
  ∃ read row r, read ++ [row] <+: rows ∧ v.Reads read r ∧ r.counter = n ∧ inner ≠ [] ∧
    r.addRow v.block.origin row = r.closeBlock inner suffix

variable {v : Visit} {read : List Text} {r : Reading}

theorem Reads.foldl (h : v.Reads read r) (rows : List Text) :
    v.Reads (read ++ rows) (rows.foldl (Reading.addRow v.block.origin) r) := by
  induction rows generalizing read r with
  | nil => simpa using h
  | cons row rest ih => simpa using ih (h.row row)

/-- All rows lead to the state that the reading ends in. -/
theorem exists_reads (v : Visit) :
    ∃ r, v.Reads v.block.rows r ∧ v.reading = r.endSegment v.block.origin :=
  ⟨_, Reads.start.foldl v.block.rows, rfl⟩

/-! ### Where rows come from -/

theorem openRows_addRow {o : Origin} {row x : Text} (h : x ∈ (r.addRow o row).openRows) :
    x ∈ r.openRows ∨ Row.Enters row x := by
  have hadds := Reading.adds_addRow o r row
  generalize r.addRow o row = s at hadds h
  cases hadds with
  | mark => simp [Reading.openRows, Reading.mark] at h
  | line => exact .inl h
  | declare => exact .inl h
  | inside _ hrows => exact hrows x (by simpa [Reading.openRows] using h)
  | close =>
    simp only [Reading.closeBlock] at h
    split at h <;> simp [Reading.openRows] at h

/-- The rows of the open block were read. -/
theorem Reads.exists_enters (h : v.Reads read r) {x : Text} (hx : x ∈ r.openRows) :
    ∃ row ∈ read, Row.Enters row x := by
  induction h with
  | start => simp [Reading.openRows, Visit.start] at hx
  | row row _ ih =>
    rcases openRows_addRow hx with hx | hx
    · obtain ⟨old, hold, henters⟩ := ih hx
      exact ⟨old, List.mem_append_left _ hold, henters⟩
    · exact ⟨row, by simp, hx⟩

/-- A block that was put aside by one of the rows that were read. -/
structure PutAside (v : Visit) (read : List Text) (b : Block) : Prop where
  /-- Its rows but the last are rows as they were read, or stand behind an opening brace. -/
  kept : ∀ x ∈ b.rows.dropLast, ∃ row ∈ read.dropLast, Row.Enters row x
  /-- The last one may have been cut. -/
  cut : ∀ x ∈ b.rows, ∃ row ∈ read, ∃ rest, Row.Enters row (x ++ rest)
  /-- A row has closed it. -/
  closed : ∃ n suffix, b.origin = .block (generatedName n) ∧ v.Closes read n b.rows suffix

theorem dropLast_subset_of_append (read : List Text) (row : Text) :
    read.dropLast ⊆ (read ++ [row]).dropLast := by
  rw [List.dropLast_concat]
  exact List.dropLast_subset read

theorem PutAside.row {b : Block} (h : v.PutAside read b) (row : Text) :
    v.PutAside (read ++ [row]) b where
  kept x hx := by
    obtain ⟨old, hold, henters⟩ := h.kept x hx
    exact ⟨old, dropLast_subset_of_append read row hold, henters⟩
  cut x hx := by
    obtain ⟨old, hold, henters⟩ := h.cut x hx
    exact ⟨old, List.mem_append_left _ hold, henters⟩
  closed := by
    obtain ⟨n, suffix, hname, before, last, s, hbefore, hcloses⟩ := h.closed
    exact ⟨n, suffix, hname, before, last, s, hbefore.trans (List.prefix_append ..), hcloses⟩

/-- **A block that waits was put aside by one of the rows.** -/
theorem Reads.putAside (h : v.Reads read r) {b : Block} (hb : b ∈ r.pending) :
    v.PutAside read b := by
  induction h with
  | start => simp [Visit.start] at hb
  | @row read r row h ih =>
    have hadds := Reading.adds_addRow v.block.origin r row
    generalize hs : r.addRow v.block.origin row = s at hadds hb
    cases hadds with
    | mark => exact (ih hb).row row
    | line => exact (ih hb).row row
    | declare => exact (ih hb).row row
    | inside => exact (ih hb).row row
    | @close rows suffix _ hkept hcut =>
      by_cases hempty : rows = []
      · rw [hempty, Reading.closeBlock_nil] at hb
        exact (ih hb).row row
      · rw [Reading.closeBlock_of_ne_nil hempty] at hb
        rcases List.mem_cons.1 hb with rfl | hb
        · refine ⟨fun x hx => ?_, fun x hx => ?_, r.counter, suffix, rfl, ?_⟩
          · rw [List.dropLast_concat]
            exact h.exists_enters (hkept x hx)
          · rcases hcut x hx with hx | ⟨rest, henters⟩
            · obtain ⟨old, hold, henters⟩ := h.exists_enters hx
              exact ⟨old, List.mem_append_left _ hold, [], by simpa using henters⟩
            · exact ⟨row, by simp, rest, henters⟩
          · exact ⟨read, row, r, List.prefix_rfl, h, rfl, hempty, hs⟩
        · exact (ih hb).row row

/-! ### What becomes of rows -/

/-- A line of a segment: a row that was read, or the jump to a block that was put aside. -/
def IsLine (read : List Text) (pending : List Block) (line : Text) : Prop :=
  line ∈ read ∨ ∃ b ∈ pending, ∃ name suffix, b.origin = .block name ∧
    line = '[' :: name ++ ']' :: suffix

theorem IsLine.mono {pending more : List Block} {line : Text} (h : IsLine read pending line)
    (hmore : pending ⊆ more) (row : Text) : IsLine (read ++ [row]) more line := by
  rcases h with h | ⟨b, hb, h⟩
  · exact .inl (List.mem_append_left _ h)
  · exact .inr ⟨b, hmore hb, h⟩

theorem pending_subset_addRow (o : Origin) (r : Reading) (row : Text) :
    r.pending ⊆ (r.addRow o row).pending := by
  have hadds := Reading.adds_addRow o r row
  generalize r.addRow o row = s at hadds ⊢
  cases hadds with
  | close =>
    simp only [Reading.closeBlock]
    split
    · exact List.Subset.refl _
    · exact List.subset_cons_self ..
  | _ => exact List.Subset.refl _

/-- The lines that come together, of the segment and of the entries, are rows and jumps. -/
theorem Reads.isLine (h : v.Reads read r) :
    (∀ line ∈ r.lines, IsLine read r.pending line) ∧
      ∀ e ∈ r.entries, ∀ line ∈ e.track.lines, IsLine read r.pending line := by
  induction h with
  | start => simp [Visit.start]
  | @row read r row h ih =>
    have hadds := Reading.adds_addRow v.block.origin r row
    have hsubset := pending_subset_addRow v.block.origin r row
    generalize r.addRow v.block.origin row = s at hadds hsubset ⊢
    -- what was there is still what it was
    have hlines : ∀ line ∈ r.lines, IsLine (read ++ [row]) s.pending line :=
      fun line hline => (ih.1 line hline).mono hsubset row
    have hentries : ∀ e ∈ r.entries, ∀ line ∈ e.track.lines,
        IsLine (read ++ [row]) s.pending line :=
      fun e he line hline => (ih.2 e he line hline).mono hsubset row
    cases hadds with
    | mark =>
      refine ⟨by simp [Reading.mark, Reading.endSegment], fun e he line hline => ?_⟩
      obtain ⟨own, heq, hown⟩ := Reading.exists_endSegment v.block.origin r
      have hmem : e ∈ r.entries ++ own := heq ▸ he
      rcases List.mem_append.1 hmem with he | he
      · exact hentries e he line hline
      · obtain ⟨-, name, -, rfl⟩ := hown e he
        exact hlines line (by simpa using hline)
    | line =>
      refine ⟨fun line hline => ?_, hentries⟩
      rcases List.mem_append.1 hline with hline | hline
      · exact hlines line hline
      · exact .inl (List.mem_append_right _ hline)
    | declare => exact ⟨hlines, hentries⟩
    | inside => exact ⟨hlines, hentries⟩
    | @close rows suffix =>
      by_cases hempty : rows = []
      · rw [hempty, Reading.closeBlock_nil] at hlines hentries ⊢
        exact ⟨hlines, hentries⟩
      · rw [Reading.closeBlock_of_ne_nil hempty] at hlines hentries ⊢
        refine ⟨fun line hline => ?_, hentries⟩
        rcases List.mem_append.1 hline with hline | hline
        · exact hlines line hline
        · exact .inr ⟨_, List.mem_cons_self, _, suffix, rfl, List.mem_singleton.1 hline⟩

/-- **The lines of an entry are rows, and jumps to the blocks that the visit puts aside.** -/
theorem isLine (v : Visit) {e : Entry} (he : e ∈ v.entries) {line : Text}
    (hline : line ∈ e.track.lines) : IsLine v.block.rows v.pending line := by
  obtain ⟨r, hreads, hreading⟩ := exists_reads v
  obtain ⟨hlines, hentries⟩ := hreads.isLine
  obtain ⟨own, heq, hown⟩ := Reading.exists_endSegment v.block.origin r
  have hpending : v.pending = r.pending := by rw [pending, hreading]; rfl
  rw [entries, hreading, heq] at he
  rw [hpending]
  rcases List.mem_append.1 he with he | he
  · exact hentries e he line hline
  · obtain ⟨-, name, -, rfl⟩ := hown e he
    exact hlines line (by simpa using hline)

/-- **The entries are the segments among the rows.** -/
theorem isSegment (v : Visit) {e : Entry} (he : e ∈ v.entries) :
    Reading.IsSegment v.block.origin v.start v.block.rows e := by
  obtain ⟨more, hentries, hmore⟩ := Reading.exists_segments v.block.origin v.block.rows v.start
  have heq : v.entries = more := hentries
  exact hmore e (heq ▸ he)

/-- The blocks that wait after the rows are those that the visit puts aside. -/
theorem putAside (v : Visit) {b : Block} (hb : b ∈ v.pending) : v.PutAside v.block.rows b := by
  obtain ⟨r, hreads, hreading⟩ := exists_reads v
  have hpending : v.pending = r.pending := by rw [pending, hreading]; rfl
  exact hreads.putAside (hpending ▸ hb)

theorem Reads.eq_foldl (h : v.Reads read r) :
    r = read.foldl (Reading.addRow v.block.origin) v.start := by
  induction h with
  | start => rfl
  | row row _ ih => rw [List.foldl_append, ← ih]; rfl

theorem pending_subset_foldl (o : Origin) (rows : List Text) (r : Reading) :
    r.pending ⊆ (rows.foldl (Reading.addRow o) r).pending := by
  induction rows generalizing r with
  | nil => exact List.Subset.refl _
  | cons row rest ih => exact List.Subset.trans (pending_subset_addRow o r row) (ih _)

/-- A block that a row closes waits to be read. -/
theorem mem_pending_of_closes {n : Nat} {inner : List Text} {suffix : Text}
    (h : v.Closes v.block.rows n inner suffix) : ⟨.block (generatedName n), inner⟩ ∈ v.pending := by
  obtain ⟨read, row, r, ⟨rest, hrows⟩, hreads, rfl, hinner, hcloses⟩ := h
  have hpending : v.pending =
      (rest.foldl (Reading.addRow v.block.origin) (r.closeBlock inner suffix)).pending := by
    rw [← hcloses, hreads.eq_foldl, pending, reading, Reading.ofRows, ← hrows, List.foldl_append,
      List.foldl_append]
    rfl
  rw [hpending]
  refine pending_subset_foldl _ rest _ ?_
  rw [Reading.closeBlock_of_ne_nil hinner]
  exact List.mem_cons_self

/-! ### Numbers -/

/-- The blocks that wait have the numbers that were given out, the newest first. -/
theorem Reads.names_pending (h : v.Reads read r) :
    ∃ k, r.counter = v.counter + k ∧
      Block.names r.pending = ((List.range' v.counter k).map generatedName).reverse := by
  induction h with
  | start => exact ⟨0, rfl, rfl⟩
  | @row read r row h ih =>
    obtain ⟨k, hcounter, hnames⟩ := ih
    have hadds := Reading.adds_addRow v.block.origin r row
    generalize r.addRow v.block.origin row = s at hadds ⊢
    cases hadds with
    | @close rows suffix =>
      by_cases hempty : rows = []
      · rw [hempty, Reading.closeBlock_nil]
        exact ⟨k, hcounter, hnames⟩
      · rw [Reading.closeBlock_of_ne_nil hempty]
        refine ⟨k + 1, by simp only [hcounter]; omega, ?_⟩
        simp [Block.names, Origin.name?, List.range'_1_concat, hcounter, ← hnames]
    | _ => exact ⟨k, hcounter, hnames⟩

theorem names_pending (v : Visit) :
    ∃ k, v.next = v.counter + k ∧
      Block.names v.pending = ((List.range' v.counter k).map generatedName).reverse := by
  obtain ⟨r, hreads, hreading⟩ := exists_reads v
  obtain ⟨k, hcounter, hnames⟩ := hreads.names_pending
  rw [next, pending, hreading]
  exact ⟨k, hcounter, hnames⟩

end Visit

namespace Block

theorem names_append (blocks more : List Block) :
    names (blocks ++ more) = names blocks ++ names more := List.filterMap_append

theorem names_cons (b : Block) (blocks : List Block) :
    names (b :: blocks) = names [b] ++ names blocks := names_append [b] blocks

/-- **The names of visited blocks** are those of the blocks at the start, and those of the numbers
that are given out, each once. -/
theorem perm_names_visits (blocks : List Block) (counter : Nat) :
    ∃ k, last blocks counter = counter + k ∧
      (names ((visits blocks counter).map (·.block))).Perm
        (names blocks ++ (List.range' counter k).map generatedName) := by
  induction blocks, counter using visits_induction with
  | nil counter => exact ⟨0, by rw [last_nil, Nat.add_zero], by simp [visits_nil, names]⟩
  | cons b rest counter ih =>
    obtain ⟨m, hnext, hpending⟩ := Visit.names_pending ⟨b, counter⟩
    obtain ⟨k, hlast, hvisits⟩ := ih
    rw [hnext] at hlast hvisits
    refine ⟨m + k, by rw [last_cons, hnext, hlast, Nat.add_assoc], ?_⟩
    -- the numbers that the visit gives out come before those that later ones do
    have hnumbers : (List.range' counter (m + k)).map generatedName =
        (List.range' counter m).map generatedName ++
          (List.range' (counter + m) k).map generatedName := by
      rw [← List.map_append, List.range'_append_1]
    have hwaiting : (names (Visit.pending ⟨b, counter⟩)).Perm
        ((List.range' counter m).map generatedName) := hpending ▸ List.reverse_perm _
    rw [visits_cons, hnext, List.map_cons, names_cons, names_cons b rest, hnumbers,
      List.append_assoc]
    refine List.Perm.append_left (names [b]) (hvisits.trans ?_)
    rw [names_append, List.append_assoc]
    exact (hwaiting.append_right _).trans (List.perm_append_comm_assoc _ _ _)

end Block

end PadScript
