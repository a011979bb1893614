import Mathlib.Data.List.Forall2
import PadScript.Proofs.Library.Generated
import PadScript.Proofs.Library.Labels

/-!
# Other numbers for the same blocks

The numbers of blocks are given out in the order in which files are read. If a file is read from
another number on, then the names of its blocks are other ones, and so are the jumps to them. This
file shows that nothing else changes.

* `Row.Renamed`, `Entry.Renamed` : rows and entries that differ in the numbers of blocks only.
* `Reading.Renamed.addRow` : **reading a row keeps two readings alike**.
* `Block.renamed_visits` : **the visits to blocks are alike**, and give out as many numbers.
-/

namespace PadScript

/-! ### What is alike -/

variable {ρ : Nat → Nat}

namespace Row

/-- The row is no jump to a block. -/
def Unnumbered (row : Text) : Prop := ∀ n suffix, row ≠ jump (generatedName n) suffix

/-- The rows are the same, but for the number of the block that they jump to. -/
inductive Renamed (ρ : Nat → Nat) : Text → Text → Prop
  /-- A row that is no jump to a block is the same. -/
  | plain {row : Text} : Unnumbered row → Renamed ρ row row
  /-- A jump to a block has another number. -/
  | jump (n : Nat) (suffix : Text) :
      Renamed ρ (jump (generatedName n) suffix) (jump (generatedName (ρ n)) suffix)

end Row

/-- The lines are the same, but for the numbers of the blocks that they jump to. -/
def Track.Renamed (ρ : Nat → Nat) (t t' : Track) : Prop :=
  List.Forall₂ (Row.Renamed ρ) t.lines t'.lines

/-- The defaults are the same, and so are the lines but for the numbers of blocks. -/
structure Script.Renamed (ρ : Nat → Nat) (s s' : Script) : Prop where
  /-- The lines are alike. -/
  track : s.track.Renamed ρ s'.track
  /-- The defaults are the same. -/
  defaults : s'.defaults = s.defaults

/-- The entries are alike: macros of one name, or blocks. -/
inductive Entry.Renamed (ρ : Nat → Nat) : Entry → Entry → Prop
  /-- Macros have the same name. -/
  | named (name : Text) {s s' : Script} : s.Renamed ρ s' →
      Renamed ρ (.named name s) (.named name s')
  /-- Blocks may have another one. -/
  | block (name name' : Text) {t t' : Track} : t.Renamed ρ t' →
      Renamed ρ (.block name t) (.block name' t')

/-- The rows come from the same file, or from a block with another number. -/
inductive Origin.Renamed (ρ : Nat → Nat) : Origin → Origin → Prop
  /-- A file is the same. -/
  | file (tag : Text) : Renamed ρ (.file tag) (.file tag)
  /-- A block has another number. -/
  | block (n : Nat) : Renamed ρ (.block (generatedName n)) (.block (generatedName (ρ n)))

/-- The blocks have the same rows, and origins that are alike. -/
structure Block.Renamed (ρ : Nat → Nat) (b b' : Block) : Prop where
  /-- The origins are alike. -/
  origin : b.origin.Renamed ρ b'.origin
  /-- The rows are the same. -/
  rows : b'.rows = b.rows

/-- The numbers from `c` on and below a bound stand for those from `c'` on. -/
def Shifts (ρ : Nat → Nat) (c c' bound : Nat) : Prop := ∀ i, c + i < bound → ρ (c + i) = c' + i

theorem Shifts.mono {c c' bound less : Nat} (h : Shifts ρ c c' bound) (hless : less ≤ bound) :
    Shifts ρ c c' less := fun i hi => h i (Nat.lt_of_lt_of_le hi hless)

namespace Origin.Renamed

variable {o o' : Origin}

theorem qualify_eq (h : o.Renamed ρ o') (name : Text) : o'.qualify name = o.qualify name := by
  cases h with
  | file tag => rfl
  | block n => rfl

/-- A block with a number is one with the number that stands for it. -/
theorem eq_block (h : o.Renamed ρ o') {n : Nat} (hname : o = .block (generatedName n)) :
    o' = .block (generatedName (ρ n)) := by
  cases h with
  | file tag => cases hname
  | block m =>
    obtain rfl := generatedName_inj (Origin.block.inj hname)
    rfl

/-- And the other way round. -/
theorem eq_block' (h : o.Renamed ρ o') (hinj : Function.Injective ρ) {n : Nat}
    (hname : o' = .block (generatedName (ρ n))) : o = .block (generatedName n) := by
  cases h with
  | file tag => cases hname
  | block m =>
    obtain rfl := hinj (generatedName_inj (Origin.block.inj hname))
    rfl

theorem declares_eq (h : o.Renamed ρ o') : o'.declares = o.declares := by
  cases h with
  | file tag => rfl
  | block n => rfl

/-- The entries of two segments are alike: under one name, or under the names of two blocks. -/
theorem entry (h : o.Renamed ρ o') {name name' : Text} {s s' : Script}
    (hname : name' = name ∨ some name = o.name? ∧ some name' = o'.name?) (hs : s.Renamed ρ s') :
    Entry.Renamed ρ (o.entry name s) (o'.entry name' s') := by
  cases h with
  | file tag =>
    rcases hname with rfl | ⟨hnone, -⟩
    · exact .named _ hs
    · cases hnone
  | block n =>
    rcases hname with rfl | ⟨hown, hown'⟩
    · by_cases hsign : name'.head? = some generatedSign
      · simp only [Origin.entry, if_pos hsign]
        exact .block _ _ hs.track
      · simp only [Origin.entry, if_neg hsign]
        exact .named _ hs
    · obtain rfl := Option.some.inj hown
      obtain rfl := Option.some.inj hown'
      exact .block _ _ hs.track

end Origin.Renamed

/-! ### Reading rows -/

/-- Two readings of the same rows are alike, which began with the numbers `c` and `c'`. -/
structure Reading.Renamed (ρ : Nat → Nat) (c c' : Nat) (o o' : Origin) (r r' : Reading) : Prop where
  /-- They have the same name, or still the name that they began with. -/
  name : r'.name? = r.name? ∨ r.name? = o.name? ∧ r'.name? = o'.name?
  /-- The lines are alike. -/
  lines : List.Forall₂ (Row.Renamed ρ) r.lines r'.lines
  /-- The defaults are the same. -/
  defaults : r'.defaults = r.defaults
  /-- The open block is the same. -/
  block : r'.block? = r.block?
  /-- What has been read is alike. -/
  entries : List.Forall₂ (Entry.Renamed ρ) r.entries r'.entries
  /-- As many numbers have been given out. -/
  counter : ∃ i, r.counter = c + i ∧ r'.counter = c' + i
  /-- The blocks that wait are alike. -/
  pending : List.Forall₂ (Block.Renamed ρ) r.pending r'.pending

namespace Reading

theorem counter_le_addRow (o : Origin) (r : Reading) (row : Text) :
    r.counter ≤ (r.addRow o row).counter := by
  have hadds := adds_addRow o r row
  generalize r.addRow o row = s at hadds ⊢
  cases hadds with
  | close =>
    simp only [closeBlock]
    split
    · exact Nat.le_refl _
    · exact Nat.le_succ _
  | _ => exact Nat.le_refl _

theorem counter_le_foldl (o : Origin) (rows : List Text) (r : Reading) :
    r.counter ≤ (rows.foldl (addRow o) r).counter := by
  induction rows generalizing r with
  | nil => exact Nat.le_refl _
  | cons row rest ih => exact Nat.le_trans (counter_le_addRow o r row) (ih _)

theorem isEmpty_eq_of_forall₂ {α β : Type} {R : α → β → Prop} {l : List α} {l' : List β}
    (h : List.Forall₂ R l l') : l'.isEmpty = l.isEmpty := by
  cases h <;> rfl

namespace Renamed

variable {c c' bound : Nat} {o o' : Origin} {r r' : Reading}

theorem endSegment (h : r.Renamed ρ c c' o o' r') (ho : o.Renamed ρ o') :
    (r.endSegment o).Renamed ρ c c' o o' (r'.endSegment o') where
  name := .inl rfl
  lines := .nil
  defaults := rfl
  block := h.block
  entries := by
    have hempty := isEmpty_eq_of_forall₂ h.lines
    have hscript : Script.Renamed ρ ⟨⟨r.lines⟩, r.defaults⟩ ⟨⟨r'.lines⟩, r'.defaults⟩ :=
      ⟨h.lines, h.defaults⟩
    have hentry : ∀ name name', (name' = name ∨ some name = o.name? ∧ some name' = o'.name?) →
        List.Forall₂ (Entry.Renamed ρ)
          (if r.lines.isEmpty then r.entries
            else r.entries ++ [o.entry name ⟨⟨r.lines⟩, r.defaults⟩])
          (if r'.lines.isEmpty then r'.entries
            else r'.entries ++ [o'.entry name' ⟨⟨r'.lines⟩, r'.defaults⟩]) := by
      intro name name' hname
      rw [hempty]
      split
      · exact h.entries
      · exact List.rel_append h.entries (.cons (ho.entry hname hscript) .nil)
    simp only [Reading.endSegment]
    rcases h.name with hname | ⟨hname, hname'⟩
    · rw [hname]
      cases r.name? with
      | none => exact h.entries
      | some name => exact hentry name name (.inl rfl)
    · rw [hname, hname']
      cases ho with
      | file tag => exact h.entries
      | block n => exact hentry _ _ (.inr ⟨rfl, rfl⟩)
  counter := h.counter
  pending := h.pending

theorem mark (h : r.Renamed ρ c c' o o' r') (ho : o.Renamed ρ o') (name : Text) :
    (r.mark o name).Renamed ρ c c' o o' (r'.mark o' name) :=
  { h.endSegment ho with
    name := .inl (congrArg some (ho.qualify_eq name))
    block := rfl }

theorem addLine (h : r.Renamed ρ c c' o o' r') (ho : o.Renamed ρ o') {row : Text}
    (hplain : Row.Unnumbered row) : (r.addLine o row).Renamed ρ c c' o o' (r'.addLine o' row) := by
  simp only [Reading.addLine, ho.declares_eq]
  split
  · split
    · exact { h with defaults := by rw [h.defaults] }
    · exact h
  · exact { h with lines := List.rel_append h.lines (.cons (.plain hplain) .nil) }

/-- A block that is closed gets the number that stands for the other one. -/
theorem closeBlock (h : r.Renamed ρ c c' o o' r') (hshift : Shifts ρ c c' bound) {rows : List Text}
    {suffix : Text} (hbound : (r.closeBlock rows suffix).counter ≤ bound) :
    (r.closeBlock rows suffix).Renamed ρ c c' o o' (r'.closeBlock rows suffix) := by
  by_cases hrows : rows = []
  · rw [hrows, closeBlock_nil, closeBlock_nil]
    exact { h with block := rfl }
  · rw [closeBlock_of_ne_nil hrows] at hbound
    obtain ⟨i, hcounter, hcounter'⟩ := h.counter
    -- both have given out as many numbers, so the next ones stand for each other
    have hnumber : r'.counter = ρ r.counter := by
      rw [hcounter']
      rw [hcounter] at hbound ⊢
      exact (hshift i hbound).symm
    rw [closeBlock_of_ne_nil hrows, closeBlock_of_ne_nil hrows, hnumber]
    exact {
      name := h.name
      lines := List.rel_append h.lines (.cons (.jump r.counter suffix) .nil)
      defaults := h.defaults
      block := rfl
      entries := h.entries
      counter := ⟨i + 1, congrArg (· + 1) hcounter,
        congrArg (· + 1) (hnumber.symm.trans hcounter')⟩
      pending := .cons ⟨.block r.counter, rfl⟩ h.pending }

theorem addToBlock (h : r.Renamed ρ c c' o o' r') (hshift : Shifts ρ c c' bound) {b : OpenBlock}
    {row : Text} (hbound : (r.addToBlock b row).counter ≤ bound) :
    (r.addToBlock b row).Renamed ρ c c' o o' (r'.addToBlock b row) := by
  simp only [Reading.addToBlock] at hbound ⊢
  split at hbound
  next suffix hsuffix => exact h.closeBlock hshift hbound
  next => exact { h with block := rfl }

/-- **Reading a row keeps two readings alike.** -/
theorem addRow (h : r.Renamed ρ c c' o o' r') (ho : o.Renamed ρ o')
    (hshift : Shifts ρ c c' bound) {row : Text} (hplain : Row.Unnumbered row)
    (hbound : (r.addRow o row).counter ≤ bound) :
    (r.addRow o row).Renamed ρ c c' o o' (r'.addRow o' row) := by
  simp only [Reading.addRow, h.block] at hbound ⊢
  split at hbound
  next => exact h.mark ho _
  next => exact h.addToBlock hshift hbound
  next => exact h.addToBlock hshift hbound
  next => exact h.addLine ho hplain

theorem foldl (h : r.Renamed ρ c c' o o' r') (ho : o.Renamed ρ o')
    (hshift : Shifts ρ c c' bound) {rows : List Text} (hplain : ∀ row ∈ rows, Row.Unnumbered row)
    (hbound : (rows.foldl (Reading.addRow o) r).counter ≤ bound) :
    (rows.foldl (Reading.addRow o) r).Renamed ρ c c' o o'
      (rows.foldl (Reading.addRow o') r') := by
  induction rows generalizing r r' with
  | nil => exact h
  | cons row rest ih =>
    have hrow := Nat.le_trans (counter_le_foldl o rest (r.addRow o row)) hbound
    exact ih (h.addRow ho hshift (hplain row List.mem_cons_self) hrow)
      (fun later hlater => hplain later (List.mem_cons_of_mem _ hlater)) hbound

end Renamed

end Reading

/-! ### Visits -/

namespace Visit

/-- The visits to two blocks are alike, and their numbers stand for each other. -/
structure Renamed (ρ : Nat → Nat) (v v' : Visit) : Prop where
  /-- The blocks are alike. -/
  block : v.block.Renamed ρ v'.block
  /-- The numbers that are given out stand for each other. -/
  shifts : Shifts ρ v.counter v'.counter v.next
  /-- No row is a jump to a block. -/
  plain : ∀ row ∈ v.block.rows, Row.Unnumbered row

variable {v v' : Visit}

theorem renamed_start (ρ : Nat → Nat) (v v' : Visit) :
    v.start.Renamed ρ v.counter v'.counter v.block.origin v'.block.origin v'.start where
  name := .inr ⟨rfl, rfl⟩
  lines := .nil
  defaults := rfl
  block := rfl
  entries := .nil
  counter := ⟨0, rfl, rfl⟩
  pending := .nil

theorem Renamed.reading (h : v.Renamed ρ v') :
    v.reading.Renamed ρ v.counter v'.counter v.block.origin v'.block.origin v'.reading := by
  have hrows := (renamed_start ρ v v').foldl h.block.origin h.shifts h.plain (Nat.le_refl _)
  rw [Visit.reading, Visit.reading, Reading.ofRows, Reading.ofRows, h.block.rows]
  exact hrows.endSegment h.block.origin

/-- They yield entries that are alike. -/
theorem Renamed.entries (h : v.Renamed ρ v') :
    List.Forall₂ (Entry.Renamed ρ) v.entries v'.entries := h.reading.entries

/-- They put aside blocks that are alike. -/
theorem Renamed.pending (h : v.Renamed ρ v') :
    List.Forall₂ (Block.Renamed ρ) v.pending v'.pending := h.reading.pending

/-- They give out as many numbers. -/
theorem Renamed.next (h : v.Renamed ρ v') :
    ∃ i, v.next = v.counter + i ∧ v'.next = v'.counter + i := h.reading.counter

/-- The lines of the blocks themselves are alike. -/
theorem Renamed.ownLines (h : v.Renamed ρ v') :
    List.Forall₂ (Row.Renamed ρ) v.ownLines v'.ownLines := by
  have hrows := List.takeWhile_append_dropWhile
    (p := fun row => (Row.marked? row).isNone) (l := v.block.rows)
  generalize htake : v.block.rows.takeWhile (fun row => (Row.marked? row).isNone) = first at hrows
  -- the own lines come from the first rows, which give out no more numbers than all of them
  have hnext : v.next = (v.block.rows.foldl (Reading.addRow v.block.origin) v.start).counter := rfl
  have hbound : (first.foldl (Reading.addRow v.block.origin) v.start).counter ≤ v.next := by
    rw [hnext, ← hrows, List.foldl_append]
    exact Reading.counter_le_foldl ..
  have hplain : ∀ row ∈ first, Row.Unnumbered row := fun row hrow =>
    h.plain row (hrows ▸ List.mem_append_left _ hrow)
  rw [Visit.ownLines, Visit.ownLines, Reading.firstLines, Reading.firstLines, h.block.rows, htake]
  exact ((renamed_start ρ v v').foldl h.block.origin h.shifts hplain hbound).lines

end Visit

namespace Block

theorem counter_le_last (blocks : List Block) (counter : Nat) : counter ≤ last blocks counter := by
  obtain ⟨k, hlast, -⟩ := perm_names_visits blocks counter
  rw [hlast]
  exact Nat.le_add_right ..

/-- **The visits to blocks that are alike are alike**, and they give out as many numbers. -/
theorem renamed_visits {blocks blocks' : List Block} {c c' : Nat}
    (hblocks : List.Forall₂ (Block.Renamed ρ) blocks blocks')
    (hshift : Shifts ρ c c' (last blocks c))
    (hplain : ∀ v ∈ visits blocks c, ∀ row ∈ v.block.rows, Row.Unnumbered row) :
    List.Forall₂ (Visit.Renamed ρ) (visits blocks c) (visits blocks' c') ∧
      ∃ i, last blocks c = c + i ∧ last blocks' c' = c' + i := by
  -- the induction is on the visits to `blocks`; those to `blocks'` put aside as many
  induction blocks, c using visits_induction generalizing blocks' c' with
  | nil c =>
    cases hblocks
    rw [visits_nil, visits_nil, last_nil, last_nil]
    exact ⟨.nil, 0, rfl, rfl⟩
  | cons b rest c ih =>
    cases hblocks with
    | @cons _ b' _ rest' hb hrest =>
      rw [last_cons] at hshift
      rw [visits_cons] at hplain
      have hv : Visit.Renamed ρ ⟨b, c⟩ ⟨b', c'⟩ :=
        ⟨hb, hshift.mono (counter_le_last ..), hplain _ List.mem_cons_self⟩
      obtain ⟨i, hnext, hnext'⟩ :
          ∃ i, Visit.next ⟨b, c⟩ = c + i ∧ Visit.next ⟨b', c'⟩ = c' + i := hv.next
      rw [visits_cons, visits_cons, last_cons, last_cons]
      rw [hnext] at ih hshift hplain ⊢
      rw [hnext']
      have hlater : Shifts ρ (c + i) (c' + i) (last (Visit.pending ⟨b, c⟩ ++ rest) (c + i)) := by
        intro j hj
        rw [Nat.add_assoc, Nat.add_assoc]
        exact hshift (i + j) (by rwa [← Nat.add_assoc])
      obtain ⟨hvisits, j, hlast, hlast'⟩ := ih (List.rel_append hv.pending hrest) hlater
        fun v hmem => hplain v (List.mem_cons_of_mem _ hmem)
      exact ⟨.cons hv hvisits, i + j, by rw [hlast, Nat.add_assoc], by rw [hlast', Nat.add_assoc]⟩

end Block

/-! ### Files -/

namespace ScriptFile

/-- No row of the file writes the name of a block by itself: no marker behind a brace is one, and no
row is a jump to one behind its braces. -/
structure Unnumbered (f : ScriptFile) : Prop where
  /-- No block is opened with the marker of such a name. -/
  marker : ∀ n, ¬ f.Opens (Row.marker (generatedName n))
  /-- No row is a jump to such a name. -/
  jump : ∀ n suffix k,
    List.replicate k '{' ++ Row.jump (generatedName n) suffix ∉ Library.rowsOf f

/-- A file without the sign of generated names does not write one. -/
theorem unnumbered_of_not_mem {f : ScriptFile}
    (h : ∀ row ∈ Library.rowsOf f, generatedSign ∉ row) : f.Unnumbered where
  marker n := fun ⟨k, hk⟩ => h _ hk (by simp [Row.marker, generatedName])
  jump n suffix k hk := h _ hk (by simp [Row.jump, generatedName])

/-- How many blocks the file holds. -/
def size (f : ScriptFile) : Nat := Block.last [f.block] 0

variable {f : ScriptFile}

theorem Unnumbered.of_visit (h : f.Unnumbered) {counter : Nat} {v : Visit}
    (hv : v ∈ f.visits counter) : ∀ row ∈ v.block.rows, Row.Unnumbered row := by
  rintro row hrow n suffix rfl
  obtain ⟨k, rest, hstems⟩ := (Library.stems_of_mem_visits hv).cut _ hrow
  rw [Row.jump_append] at hstems
  exact h.jump n _ k hstems

theorem renamed_block (ρ : Nat → Nat) (f : ScriptFile) :
    List.Forall₂ (Block.Renamed ρ) [f.block] [f.block] := .cons ⟨.file _, rfl⟩ .nil

/-- A file holds as many blocks wherever the numbers begin. -/
theorem Unnumbered.last_eq (h : f.Unnumbered) (counter : Nat) :
    Block.last [f.block] counter = counter + f.size := by
  have hshift : Shifts (· + counter) 0 counter (Block.last [f.block] 0) := by
    intro i _
    show 0 + i + counter = counter + i
    omega
  obtain ⟨-, i, hsize, hlast⟩ :=
    Block.renamed_visits (renamed_block _ f) hshift fun v hv => h.of_visit hv
  rw [hlast, size, hsize, Nat.zero_add]

/-- **Reading a file from another number on is alike.** -/
theorem Unnumbered.renamed_visits (h : f.Unnumbered) {m m' : Nat}
    (hshift : ∀ i < f.size, ρ (m + i) = m' + i) :
    List.Forall₂ (Visit.Renamed ρ) (f.visits m) (f.visits m') := by
  refine (Block.renamed_visits (renamed_block _ f) (fun i hi => hshift i ?_)
    fun v hv => h.of_visit hv).1
  rw [h.last_eq] at hi
  exact Nat.lt_of_add_lt_add_left hi

end ScriptFile

end PadScript
