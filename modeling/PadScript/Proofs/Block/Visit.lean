import PadScript.Proofs.Block.Step

/-!
# Blocks, one visit each

Reading a file visits its rows and then, one after another, the blocks that were put aside. A
`Visit` is the reading of one of them: which block it is, and which number is the next to be given
out when it begins. What a visit yields does not depend on what was read before it or on what waits
behind it.

* `Block.readAll_eq_visits` : what is read altogether is what the visits yield, in order.
* `Block.forall_visits`, `Block.exists_visit_of_pending` : the visited blocks are those at the start
  and those that a visit puts aside.
-/

namespace PadScript

namespace Reading

variable (entries : List Entry) (pending : List Block) (o : Origin) (r : Reading)

/-- The reading behind entries that were read before, and before blocks that were put aside. -/
def onto : Reading :=
  { r with entries := entries ++ r.entries, pending := r.pending ++ pending }

theorem endSegment_onto :
    (r.onto entries pending).endSegment o = (r.endSegment o).onto entries pending := by
  simp only [endSegment, onto]
  cases r.name? with
  | none => rfl
  | some name => by_cases hlines : r.lines.isEmpty <;> simp [hlines]

theorem mark_onto (name : Text) :
    (r.onto entries pending).mark o name = (r.mark o name).onto entries pending := by
  simp only [mark, endSegment_onto]
  rfl

theorem addLine_onto (row : Text) :
    (r.onto entries pending).addLine o row = (r.addLine o row).onto entries pending := by
  simp only [addLine]
  split
  · split <;> rfl
  · rfl

theorem closeBlock_onto (rows : List Text) (suffix : Text) :
    (r.onto entries pending).closeBlock rows suffix =
      (r.closeBlock rows suffix).onto entries pending := by
  simp only [closeBlock]
  split <;> rfl

theorem addToBlock_onto (b : OpenBlock) (row : Text) :
    (r.onto entries pending).addToBlock b row = (r.addToBlock b row).onto entries pending := by
  simp only [addToBlock, closeBlock_onto]
  split <;> rfl

theorem addRow_onto (row : Text) :
    (r.onto entries pending).addRow o row = (r.addRow o row).onto entries pending := by
  have hblock : (r.onto entries pending).block? = r.block? := rfl
  simp only [addRow, hblock, mark_onto, addToBlock_onto, addLine_onto]
  split <;> rfl

theorem foldl_addRow_onto (rows : List Text) :
    rows.foldl (addRow o) (r.onto entries pending) =
      (rows.foldl (addRow o) r).onto entries pending := by
  induction rows generalizing r with
  | nil => rfl
  | cons row rest ih => rw [List.foldl_cons, addRow_onto, ih, List.foldl_cons]

/-- What a block yields does not depend on what is there already. -/
theorem ofRows_eq_onto (b : Block) (counter : Nat) :
    ofRows b entries counter pending = (ofRows b [] counter []).onto entries pending := by
  have hstart : (⟨b.origin.name?, [], ∅, none, entries, counter, pending⟩ : Reading) =
      onto entries pending ⟨b.origin.name?, [], ∅, none, [], counter, []⟩ := by simp [onto]
  rw [ofRows, hstart, foldl_addRow_onto, endSegment_onto, ofRows]

end Reading

/-- The reading of one block. -/
structure Visit where
  /-- The block. -/
  block : Block
  /-- The number of the next block when its reading begins. -/
  counter : Nat

namespace Visit

/-- What the reading comes to. -/
def reading (v : Visit) : Reading := .ofRows v.block [] v.counter []

/-- What the reading yields. -/
def entries (v : Visit) : List Entry := v.reading.entries

/-- The blocks that the reading puts aside, the newest first. -/
def pending (v : Visit) : List Block := v.reading.pending

/-- The number of the next block when the reading is over. -/
def next (v : Visit) : Nat := v.reading.counter

end Visit

namespace Block

/-- The visits that reading blocks takes. -/
def visits (blocks : List Block) (counter : Nat) : List Visit :=
  match blocks with
  | [] => []
  | b :: rest =>
    let r := Reading.ofRows b [] counter rest
    ⟨b, counter⟩ :: visits r.pending r.counter
termination_by weightOf blocks
decreasing_by exact Reading.weight_ofRows ..

theorem visits_nil (counter : Nat) : visits [] counter = [] := by
  rw [visits]

theorem visits_cons (b : Block) (rest : List Block) (counter : Nat) :
    visits (b :: rest) counter =
      ⟨b, counter⟩ :: visits (Visit.pending ⟨b, counter⟩ ++ rest) (Visit.next ⟨b, counter⟩) := by
  rw [visits]
  simp only [Reading.ofRows_eq_onto [] rest b counter]
  rfl

theorem weightOf_pending_lt (b : Block) (rest : List Block) (counter : Nat) :
    weightOf (Visit.pending ⟨b, counter⟩ ++ rest) < weightOf (b :: rest) := by
  have h := Reading.weight_ofRows b [] counter rest
  rwa [Reading.ofRows_eq_onto] at h

/-- Induction along the visits: to the first block, and then to those that it puts aside and those
that waited behind it. -/
theorem visits_induction {motive : List Block → Nat → Prop} (nil : ∀ counter, motive [] counter)
    (cons : ∀ b rest counter,
      motive (Visit.pending ⟨b, counter⟩ ++ rest) (Visit.next ⟨b, counter⟩) →
        motive (b :: rest) counter)
    (blocks : List Block) (counter : Nat) : motive blocks counter := by
  induction hw : weightOf blocks using Nat.strongRecOn generalizing blocks counter with
  | ind w ih =>
    cases blocks with
    | nil => exact nil counter
    | cons b rest =>
      exact cons b rest counter (ih _ (hw ▸ weightOf_pending_lt b rest counter) _ _ rfl)

theorem readAll_cons_eq_visit (b : Block) (rest : List Block) (old : List Entry) (counter : Nat) :
    readAll (b :: rest) old counter =
      readAll (Visit.pending ⟨b, counter⟩ ++ rest) (old ++ Visit.entries ⟨b, counter⟩)
        (Visit.next ⟨b, counter⟩) := by
  rw [readAll_cons, Reading.ofRows_eq_onto]
  rfl

/-- The number of the next block when all blocks are read. -/
def last (blocks : List Block) (counter : Nat) : Nat := (readAll blocks [] counter).2

/-- **Reading yields what its visits yield, in order.** -/
theorem readAll_eq_visits (blocks : List Block) (counter : Nat) (old : List Entry) :
    readAll blocks old counter =
      (old ++ (visits blocks counter).flatMap Visit.entries, last blocks counter) := by
  induction blocks, counter using visits_induction generalizing old with
  | nil counter => simp [last, readAll_nil, visits_nil]
  | cons b rest counter ih =>
    rw [last, readAll_cons_eq_visit, readAll_cons_eq_visit, ih, ih ([] ++ _), visits_cons]
    simp [List.flatMap_cons]

theorem last_nil (counter : Nat) : last [] counter = counter := by
  rw [last, readAll_nil]

theorem last_cons (b : Block) (rest : List Block) (counter : Nat) :
    last (b :: rest) counter =
      last (Visit.pending ⟨b, counter⟩ ++ rest) (Visit.next ⟨b, counter⟩) := by
  rw [last, readAll_cons_eq_visit, readAll_eq_visits]

/-- What holds of the blocks at the start, and of those that a visit to such a block puts aside,
holds of every visited block. -/
theorem forall_visits {P : Block → Prop} (hpending : ∀ v : Visit, P v.block → ∀ b ∈ v.pending, P b)
    (blocks : List Block) (counter : Nat) (hstart : ∀ b ∈ blocks, P b) :
    ∀ v ∈ visits blocks counter, P v.block := by
  induction blocks, counter using visits_induction with
  | nil counter => simp [visits_nil]
  | cons b rest counter ih =>
    have hb := hstart b List.mem_cons_self
    intro v hv
    rw [visits_cons] at hv
    rcases List.mem_cons.1 hv with rfl | hv
    · exact hb
    · refine ih (fun p hp => ?_) v hv
      rcases List.mem_append.1 hp with hp | hp
      · exact hpending ⟨b, counter⟩ hb p hp
      · exact hstart p (List.mem_cons_of_mem _ hp)

/-- Every block that waits is visited. -/
theorem exists_visit {blocks : List Block} {b : Block} (h : b ∈ blocks) (counter : Nat) :
    ∃ v ∈ visits blocks counter, v.block = b := by
  induction blocks, counter using visits_induction with
  | nil counter => simp at h
  | cons first rest counter ih =>
    rw [visits_cons]
    rcases List.mem_cons.1 h with rfl | h
    · exact ⟨_, List.mem_cons_self, rfl⟩
    · obtain ⟨v, hv, hblock⟩ := ih (List.mem_append_right _ h)
      exact ⟨v, List.mem_cons_of_mem _ hv, hblock⟩

/-- Every block that a visit puts aside is visited. -/
theorem exists_visit_of_pending {blocks : List Block} {counter : Nat} {v : Visit}
    (hv : v ∈ visits blocks counter) {b : Block} (hb : b ∈ v.pending) :
    ∃ w ∈ visits blocks counter, w.block = b := by
  induction blocks, counter using visits_induction with
  | nil counter => simp [visits_nil] at hv
  | cons first rest counter ih =>
    rw [visits_cons] at hv ⊢
    rcases List.mem_cons.1 hv with rfl | hv
    · obtain ⟨w, hw, hblock⟩ := exists_visit (List.mem_append_left rest hb) _
      exact ⟨w, List.mem_cons_of_mem _ hw, hblock⟩
    · obtain ⟨w, hw, hblock⟩ := ih hv
      exact ⟨w, List.mem_cons_of_mem _ hw, hblock⟩

/-- A visited block waited at the start, or a visit put it aside. -/
theorem mem_or_exists_pending {blocks : List Block} {counter : Nat} {v : Visit}
    (h : v ∈ visits blocks counter) :
    v.block ∈ blocks ∨ ∃ u ∈ visits blocks counter, v.block ∈ u.pending := by
  induction blocks, counter using visits_induction with
  | nil counter => simp [visits_nil] at h
  | cons first rest counter ih =>
    rw [visits_cons] at h ⊢
    rcases List.mem_cons.1 h with rfl | h
    · exact .inl List.mem_cons_self
    · rcases ih h with hwaits | ⟨u, hu, hpending⟩
      · rcases List.mem_append.1 hwaits with hpending | hwaits
        · exact .inr ⟨_, List.mem_cons_self, hpending⟩
        · exact .inl (List.mem_cons_of_mem _ hwaits)
      · exact .inr ⟨u, List.mem_cons_of_mem _ hu, hpending⟩

end Block

end PadScript
