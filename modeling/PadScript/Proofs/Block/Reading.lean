import PadScript.Proofs.Block.Program
import PadScript.Proofs.Library.Lookup

/-!
# Reading written programs

What `Reading` makes of the rows that write a program down. Inside an open block it keeps them as
they are (`Program.foldl_addRow_inside`); outside it keeps the lines of the outermost level and puts
the blocks aside (`Program.foldl_addRow_outside`). Reading the blocks that were put aside, newest
first, with those that they hold in turn, leaves a library that *holds* every one of them
(`Program.exists_yields_readAll`): its lines are found under its name, and the jumps among them lead
to blocks that are held, with higher numbers.
-/

namespace PadScript

/-! ### Rows -/

namespace Row

/-- A row without braces goes into the block as it is. -/
theorem scanBlock_of_not_mem {line : Text} (hopen : '{' ∉ line) (hclose : '}' ∉ line)
    (depth : Nat) : scanBlock depth line = ⟨line, depth, none⟩ := by
  induction line with
  | nil => simp [scanBlock]
  | cons c rest ih =>
    simp only [List.mem_cons, not_or] at hopen hclose
    unfold scanBlock
    split
    · simp_all
    · simp_all
    next hc heq =>
      obtain ⟨rfl, rfl⟩ := List.cons.inj heq
      simp [Ne.symm hopen.1, Ne.symm hclose.1, ih hopen.2 hclose.2]

theorem scanBlock_opening (depth : Nat) : scanBlock depth ['{'] = ⟨['{'], depth + 1, none⟩ := by
  simp [scanBlock]

theorem scanBlock_closing_inner {suffix : Text} (h : IsSuffix suffix) (depth : Nat) :
    scanBlock (depth + 1) ('}' :: suffix) = ⟨'}' :: suffix, depth, none⟩ := by
  simp [scanBlock, scanBlock_of_not_mem h.opening h.closing]

theorem scanBlock_closing (suffix : Text) :
    scanBlock 0 ('}' :: suffix) = ⟨[], 0, some suffix⟩ := by
  simp [scanBlock]

theorem marked?_eq_none {line : Text} (h : line.head? ≠ some '<') : marked? line = none := by
  unfold marked?
  split
  · simp at h
  · rfl

theorem after?_opening_eq_none {line : Text} (h : '{' ∉ line) : Text.after? ['{'] line = none := by
  cases line with
  | nil => rfl
  | cons c rest =>
    simp only [List.mem_cons, not_or] at h
    simp [Text.after?, h.1]

theorem IsPlain.ne_nil {line : Text} (h : IsPlain line) : line ≠ [] := by
  rintro rfl
  have := h.clean
  simp [clean?, Text.trim] at this

theorem IsPlain.declaration? {line : Text} (h : IsPlain line) : Row.declaration? line = none := by
  simp [Row.declaration?, h.default]

end Row

namespace Reading

variable {o : Origin} {r : Reading} {line : Text}

theorem addRow_of_open {b : OpenBlock} (hmark : line.head? ≠ some '<') (h : r.block? = some b) :
    r.addRow o line = r.addToBlock b line := by
  simp [addRow, Row.marked?_eq_none hmark, h]

theorem addRow_opening (h : r.block? = none) (rest : Text) :
    r.addRow o ('{' :: rest) = r.addToBlock ⟨[], 0⟩ rest := by
  simp [addRow, Row.marked?, h, Text.after?]

theorem addRow_of_isPlain (hline : Row.IsPlain line) (h : r.block? = none) :
    r.addRow o line = { r with lines := r.lines ++ [line] } := by
  simp [addRow, Row.marked?_eq_none hline.marker, h, Row.after?_opening_eq_none hline.opening,
    addLine, hline.declaration?]

theorem addToBlock_of_scan {b : OpenBlock} {inner : Text} {depth : Nat}
    (h : Row.scanBlock b.depth line = ⟨inner, depth, none⟩) (hne : inner ≠ []) :
    r.addToBlock b line = { r with block? := some ⟨b.rows ++ [inner], depth⟩ } := by
  simp [addToBlock, h, hne]

end Reading

namespace Program

/-- The rows of a block, under the name of its number. -/
def toBlock (b : Nat × Program) : Block := ⟨.block (generatedName b.1), b.2.written⟩

/-- Inside an open block the written rows stay as they are. -/
theorem foldl_addRow_inside {p : Program} (hp : p.WellFormed) (o : Origin) {r : Reading}
    {rows : List Text} {depth : Nat} (h : r.block? = some ⟨rows, depth⟩) :
    p.written.foldl (Reading.addRow o) r =
      { r with block? := some ⟨rows ++ p.written, depth⟩ } := by
  induction p generalizing r rows depth with
  | done => simp [written, ← h]
  | row line rest ih =>
    obtain ⟨hline, hrest⟩ := hp
    rw [written, List.foldl_cons, Reading.addRow_of_open hline.marker h,
      Reading.addToBlock_of_scan
        (Row.scanBlock_of_not_mem hline.opening hline.closing depth) hline.ne_nil,
      ih hrest rfl]
    simp
  | block inner suffix rest ihinner ihrest =>
    obtain ⟨hinner, hsuffix, hrest⟩ := hp
    rw [written, List.foldl_cons, Reading.addRow_of_open (by simp) h,
      Reading.addToBlock_of_scan (Row.scanBlock_opening depth) (by simp), List.foldl_append,
      ihinner hinner rfl, List.foldl_cons, Reading.addRow_of_open (by simp) rfl,
      Reading.addToBlock_of_scan (Row.scanBlock_closing_inner hsuffix depth) (by simp),
      ihrest hrest rfl]
    simp

/-- A written block becomes a jump to its name and is put aside, unless it is empty. -/
theorem foldl_addRow_block {inner : Program} (hinner : inner.WellFormed) (suffix : Text)
    (o : Origin) {r : Reading} (h : r.block? = none) :
    (['{'] :: (inner.written ++ ['}' :: suffix])).foldl (Reading.addRow o) r =
      r.closeBlock inner.written suffix := by
  have hopen : r.addRow o ['{'] = { r with block? := some ⟨[], 0⟩ } := by
    rw [Reading.addRow_opening h]
    simp [Reading.addToBlock, Row.scanBlock]
  rw [List.foldl_cons, hopen, List.foldl_append, foldl_addRow_inside hinner o rfl, List.foldl_cons,
    Reading.addRow_of_open (by simp) rfl, List.foldl_nil]
  simp [Reading.addToBlock, Row.scanBlock_closing, Reading.closeBlock]

/-- Outside any block the lines of the outermost level stay, and the blocks are put aside. -/
theorem foldl_addRow_outside {p : Program} (hp : p.WellFormed) (o : Origin) {r : Reading}
    (h : r.block? = none) :
    p.written.foldl (Reading.addRow o) r =
      { r with
        lines := r.lines ++ p.lines r.counter
        counter := r.counter + (p.blocks r.counter).length
        pending := ((p.blocks r.counter).map toBlock).reverse ++ r.pending } := by
  induction p generalizing r with
  | done => simp [written, lines, blocks]
  | row line rest ih =>
    obtain ⟨hline, hrest⟩ := hp
    rw [written, List.foldl_cons, Reading.addRow_of_isPlain hline h,
      ih (r := { r with lines := r.lines ++ [line] }) hrest h]
    simp [lines, blocks]
  | block inner suffix rest _ ih =>
    obtain ⟨hinner, hsuffix, hrest⟩ := hp
    have hsplit : (block inner suffix rest).written =
        (['{'] :: (inner.written ++ ['}' :: suffix])) ++ rest.written := by simp [written]
    rw [hsplit, List.foldl_append, foldl_addRow_block hinner suffix o h]
    by_cases hdone : inner = done
    · subst hdone
      have hclose : r.closeBlock (written done) suffix = r := by
        simp [Reading.closeBlock, written, ← h]
      rw [hclose, ih hrest h]
      simp [lines, blocks]
    · have hne : inner.written.isEmpty = false := by
        simpa using fun hnil => hdone (written_eq_nil_iff.1 hnil)
      rw [Reading.closeBlock, hne]
      simp only [Bool.false_eq_true, if_false]
      rw [ih hrest rfl]
      simp [lines, blocks, hdone, toBlock, jumpLine, h, Nat.add_assoc, Nat.add_comm 1]

/-! ### Reading what was put aside -/

/-- The track of lines, if there are any. -/
def track? (lines : List Text) : Option Track := if lines.isEmpty then none else some ⟨lines⟩

/-- What a block yields, if it has lines. -/
def entries (n : Nat) (lines : List Text) : List Entry :=
  ((track? lines).map (.block (generatedName n))).toList

/-- The lines stand for the program, as far as the library is concerned: its jumps lead to blocks
that stand for its blocks in turn, with numbers from `n` on. -/
inductive Kept (l : Library) : (n : Nat) → Program → List Text → Prop
  /-- There are no lines. -/
  | done {n : Nat} : Kept l n .done []
  /-- A row is a line. -/
  | row {n : Nat} {line : Text} {rest : Program} {lines : List Text} :
      Kept l n rest lines → Kept l n (.row line rest) (line :: lines)
  /-- A block without rows is nothing. -/
  | empty {n : Nat} {suffix : Text} {rest : Program} {lines : List Text} :
      Kept l n rest lines → Kept l n (.block .done suffix rest) lines
  /-- Any other block is a jump. -/
  | block {n m : Nat} {inner rest : Program} {suffix : Text} {lines innerLines : List Text} :
      n ≤ m → Kept l (m + 1) inner innerLines →
      l.track? (generatedName m) = track? innerLines → Kept l n rest lines →
      Kept l n (.block inner suffix rest) (jumpLine m suffix :: lines)

/-- The library holds a program as the block of a number. -/
def HeldBy (l : Library) (b : Nat × Program) : Prop :=
  ∃ lines, Kept l (b.1 + 1) b.2 lines ∧ l.track? (generatedName b.1) = track? lines

/-- If a library holds the blocks of a program, its lines stand for the program. -/
theorem kept_of_heldBy {l : Library} {p : Program} {n c : Nat} (hn : n ≤ c)
    (h : ∀ b ∈ p.blocks c, HeldBy l b) : Kept l n p (p.lines c) := by
  induction p generalizing c with
  | done => exact .done
  | row line rest ih => exact .row (ih hn h)
  | block inner suffix rest _ ih =>
    by_cases hdone : inner = done
    · subst hdone
      simp only [blocks, lines, if_true] at h ⊢
      exact .empty (ih hn h)
    · simp only [blocks, lines, hdone, if_false] at h ⊢
      obtain ⟨innerLines, hkept, htrack⟩ := h (c, inner) List.mem_cons_self
      exact .block hn hkept htrack
        (ih (Nat.le_succ_of_le hn) fun b hb => h b (List.mem_cons_of_mem _ hb))

theorem ofRows_toBlock {b : Nat × Program} (hb : b.2.WellFormed) (old : List Entry) (c : Nat)
    (pending : List Block) :
    let r := Reading.ofRows (toBlock b) old c pending
    r.entries = old ++ entries b.1 (b.2.lines c) ∧ r.counter = c + (b.2.blocks c).length ∧
      r.pending = ((b.2.blocks c).map toBlock).reverse ++ pending := by
  simp only [Reading.ofRows, toBlock]
  rw [foldl_addRow_outside hb _ rfl]
  refine ⟨?_, rfl, rfl⟩
  by_cases hlines : b.2.lines c = []
  · simp [Reading.endSegment, Origin.name?, entries, track?, hlines]
  · simp [Reading.endSegment, Origin.name?, Origin.entry, generatedName, entries, track?, hlines]

/-- The numbers of blocks. -/
def numbers (bs : List (Nat × Program)) : List Nat := bs.map Prod.fst

/-- Blocks that may wait to be read while `c` is the next number. -/
structure Waiting (bs : List (Nat × Program)) (c : Nat) : Prop where
  /-- They are written programs. -/
  wellFormed : ∀ b ∈ bs, b.2.WellFormed
  /-- They have different numbers. -/
  nodup : (numbers bs).Nodup
  /-- Their numbers have been given out. -/
  below : ∀ k ∈ numbers bs, k < c

/-- The number is one of these blocks, or is still to be given out. -/
def IsDue (bs : List (Nat × Program)) (c k : Nat) : Prop := k ∈ numbers bs ∨ c ≤ k

/-- What the waiting blocks yield: blocks under the numbers that are due, such that a library in
which those are free holds every one of the waiting blocks afterwards. -/
structure Yields (bs : List (Nat × Program)) (c : Nat) (more : List Entry) : Prop where
  /-- Only blocks under numbers that are due. -/
  due : ∀ e ∈ more, ∃ k t, e = .block (generatedName k) t ∧ IsDue bs c k
  /-- Every one of the waiting blocks. -/
  holds : ∀ l : Library, (∀ k, IsDue bs c k → l.track? (generatedName k) = none) →
    ∀ b ∈ bs, HeldBy (more.foldl Library.add l) b

section Turn

variable {n c : Nat} {p : Program} {rest : List (Nat × Program)}

theorem mem_numbers_blocks {k : Nat} :
    k ∈ numbers (p.blocks c) ↔ c ≤ k ∧ k < c + (p.blocks c).length := by
  rw [numbers, map_fst_blocks, List.mem_range'_1]

theorem mem_numbers_turn {k : Nat} :
    k ∈ numbers ((p.blocks c).reverse ++ rest) ↔
      (c ≤ k ∧ k < c + (p.blocks c).length) ∨ k ∈ numbers rest := by
  rw [← mem_numbers_blocks, numbers, List.map_append, List.mem_append, List.map_reverse,
    List.mem_reverse, numbers, numbers]

/-- The blocks of a program may wait before others. -/
theorem Waiting.append_blocks (h : Waiting rest c) (hp : p.WellFormed) :
    Waiting ((p.blocks c).reverse ++ rest) (c + (p.blocks c).length) where
  wellFormed b hb := by
    rcases List.mem_append.1 hb with hb | hb
    · exact wellFormed_of_mem_blocks hp (List.mem_reverse.1 hb)
    · exact h.wellFormed b hb
  nodup := by
    rw [numbers, List.map_append, List.nodup_append]
    refine ⟨?_, h.nodup, ?_⟩
    · rw [List.map_reverse, (List.reverse_perm _).nodup_iff, map_fst_blocks]
      exact List.nodup_range' _
    · intro k hk k' hk'
      rw [List.map_reverse, List.mem_reverse] at hk
      have hge := (mem_numbers_blocks.1 hk).1
      have hlt := h.below k' hk'
      omega
  below k hk := by
    rcases mem_numbers_turn.1 hk with hk | hk
    · exact hk.2
    · have hlt := h.below k hk
      omega

/-- When a block has been read, its own blocks wait in its place. -/
theorem Waiting.turn (h : Waiting ((n, p) :: rest) c) :
    Waiting ((p.blocks c).reverse ++ rest) (c + (p.blocks c).length) := by
  refine Waiting.append_blocks ⟨fun b hb => ?_, ?_, fun k hk => ?_⟩ ?_
  · exact h.wellFormed b (List.mem_cons_of_mem _ hb)
  · exact (List.nodup_cons.1 h.nodup).2
  · exact h.below k (List.mem_cons_of_mem _ hk)
  · exact h.wellFormed (n, p) List.mem_cons_self

/-- What is due after a block has been read was due before, and is not that block. -/
theorem Waiting.isDue_turn (h : Waiting ((n, p) :: rest) c) {k : Nat}
    (hk : IsDue ((p.blocks c).reverse ++ rest) (c + (p.blocks c).length) k) :
    IsDue ((n, p) :: rest) c k ∧ k ≠ n := by
  have hn := h.below n List.mem_cons_self
  have hfresh := (List.nodup_cons.1 h.nodup).1
  rcases hk with hk | hk
  · rcases mem_numbers_turn.1 hk with hk | hk
    · exact ⟨.inr hk.1, by omega⟩
    · refine ⟨.inl (List.mem_cons_of_mem _ hk), ?_⟩
      rintro rfl
      exact hfresh hk
  · exact ⟨.inr (by omega), by omega⟩

theorem track?_entries {l : Library} {lines : List Text}
    (h : l.track? (generatedName n) = none) :
    ((entries n lines).foldl Library.add l).track? (generatedName n) = track? lines := by
  by_cases hlines : lines = []
  · simp [entries, track?, hlines, h]
  · simp [entries, track?, hlines, Library.track?_add_block (Library.named_of_track?_eq_none h)]

theorem track?_entries_of_ne {l : Library} {lines : List Text} {k : Nat} (h : k ≠ n) :
    ((entries n lines).foldl Library.add l).track? (generatedName k) =
      l.track? (generatedName k) := by
  refine Library.track?_foldl_add (fun e he => ?_) l
  obtain ⟨t, -, rfl⟩ := Option.map_eq_some_iff.1 (Option.mem_toList.1 he)
  exact ⟨_, t, rfl, fun heq => h (generatedName_inj heq).symm⟩

/-- A block that is read yields its lines, and then what the blocks behind it yield. -/
theorem Yields.cons (h : Waiting ((n, p) :: rest) c) {more : List Entry}
    (hmore : Yields ((p.blocks c).reverse ++ rest) (c + (p.blocks c).length) more) :
    Yields ((n, p) :: rest) c (entries n (p.lines c) ++ more) where
  due e he := by
    rcases List.mem_append.1 he with he | he
    · obtain ⟨t, -, rfl⟩ := Option.map_eq_some_iff.1 (Option.mem_toList.1 he)
      exact ⟨n, t, rfl, .inl List.mem_cons_self⟩
    · obtain ⟨k, t, rfl, hk⟩ := hmore.due e he
      exact ⟨k, t, rfl, (h.isDue_turn hk).1⟩
  holds l hfree := by
    have hheld := hmore.holds ((entries n (p.lines c)).foldl Library.add l) fun k hk => by
      obtain ⟨hdue, hne⟩ := h.isDue_turn hk
      rw [track?_entries_of_ne hne, hfree k hdue]
    rw [List.foldl_append]
    intro b hb
    -- the block is stored before those behind it, and none of these has its name
    rcases List.mem_cons.1 hb with rfl | hb
    · have hn := h.below n List.mem_cons_self
      refine ⟨p.lines c, kept_of_heldBy hn fun b hb =>
        hheld b (List.mem_append_left _ (List.mem_reverse.2 hb)), ?_⟩
      rw [Library.track?_foldl_add fun e he => ?_,
        track?_entries (hfree n (.inl List.mem_cons_self))]
      obtain ⟨k, t, rfl, hk⟩ := hmore.due e he
      exact ⟨_, t, rfl, fun heq => (h.isDue_turn hk).2 (generatedName_inj heq)⟩
    · exact hheld b (List.mem_append_right _ hb)

end Turn

/-- **Reading blocks puts every one of them into the library**, with those that they hold in turn,
and nothing else. -/
theorem exists_yields_readAll {bs : List (Nat × Program)} {c : Nat} (h : Waiting bs c)
    (old : List Entry) :
    ∃ more, (Block.readAll (bs.map toBlock) old c).1 = old ++ more ∧ Yields bs c more := by
  -- the weight of the blocks that wait gets smaller with every one that is read
  induction hw : Block.weightOf (bs.map toBlock) using Nat.strongRecOn generalizing bs c old with
  | ind w ih =>
    cases bs with
    | nil => exact ⟨[], by simp [Block.readAll_nil], ⟨by simp, by simp⟩⟩
    | cons b rest =>
      obtain ⟨n, p⟩ := b
      obtain ⟨hentries, hcounter, hpending⟩ :=
        ofRows_toBlock (h.wellFormed (n, p) List.mem_cons_self) old c (rest.map toBlock)
      have hturn : ((p.blocks c).map toBlock).reverse ++ rest.map toBlock =
          ((p.blocks c).reverse ++ rest).map toBlock := by simp
      have hlt := Reading.weight_ofRows (toBlock (n, p)) old c (rest.map toBlock)
      rw [hpending, hturn] at hlt
      obtain ⟨more, hread, hyields⟩ := ih _ (hw ▸ hlt) h.turn (old ++ entries n (p.lines c)) rfl
      refine ⟨entries n (p.lines c) ++ more, ?_, hyields.cons h⟩
      rw [List.map_cons, Block.readAll_cons, hpending, hentries, hcounter, hturn, hread,
        List.append_assoc]

end Program

end PadScript
