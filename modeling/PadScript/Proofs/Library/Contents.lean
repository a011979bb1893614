import PadScript.Proofs.Block.Closing

/-!
# What a load stores

A load reads file after file, each with the blocks that its rows put aside (`Library.visits`), and
stores what the visits yield. This file says what can be stored, and that every row that is read
stems from a row of a file.

* `Library.exists_entry` : a label leads to the track of an entry of that name.
* `Library.isSome_track?` : the name of every entry leads somewhere.
* `Library.eq_of_name` : no two blocks of a load have the same name.
* `Library.stems_of_mem_visits` : the rows of a visit are rows of a file, without some opening
  braces before them, and the last one perhaps cut.
-/

namespace PadScript

namespace ScriptFile

/-- The rows of a file, to be read. -/
def block (f : ScriptFile) : Block := ⟨.file (tagOf f.path), Library.rowsOf f⟩

/-- The visits that reading a file takes. -/
def visits (f : ScriptFile) (counter : Nat) : List Visit := Block.visits [f.block] counter

/-- The rows of a file as they are written, without comments and blanks. -/
def cleanRows (f : ScriptFile) : List Text := (Text.rows f.text).filterMap Row.clean?

/-- A row that is no jump is read as it is written. -/
theorem mem_cleanRows {f : ScriptFile} {row : Text} (hhead : row.head? ≠ some '[')
    (hrow : row ∈ Library.rowsOf f) : row ∈ f.cleanRows := by
  obtain ⟨written, hwritten, rfl⟩ := List.mem_map.1 hrow
  rw [Row.qualify_eq_self (Row.head?_qualify _ written ▸ hhead)]
  exact hwritten

/-- A row of the file is this one behind opening braces. -/
def Opens (f : ScriptFile) (row : Text) : Prop :=
  ∃ k, List.replicate (k + 1) '{' ++ row ∈ Library.rowsOf f

theorem opens_iff (f : ScriptFile) (row : Text) :
    f.Opens row ↔ (Library.rowsOf f).any fun r =>
      row.length < r.length && r == List.replicate (r.length - row.length) '{' ++ row := by
  simp only [Opens, List.any_eq_true, Bool.and_eq_true, decide_eq_true_eq, beq_iff_eq]
  constructor
  · rintro ⟨k, hk⟩
    have hlength : (List.replicate (k + 1) '{' ++ row).length = k + 1 + row.length := by simp
    refine ⟨_, hk, by omega, ?_⟩
    rw [hlength, Nat.add_sub_cancel]
  · rintro ⟨r, hr, hlength, heq⟩
    refine ⟨r.length - row.length - 1, ?_⟩
    rwa [Nat.sub_add_cancel (by omega), ← heq]

instance (f : ScriptFile) (row : Text) : Decidable (f.Opens row) :=
  decidable_of_iff _ (f.opens_iff row).symm

end ScriptFile

namespace Library

/-- The visits that reading files takes. -/
def visitsFrom : (files : List ScriptFile) → (counter : Nat) → List Visit
  | [], _ => []
  | f :: rest, counter => f.visits counter ++ visitsFrom rest (Block.last [f.block] counter)

/-- The visits of a load. -/
def visits (files : List ScriptFile) : List Visit :=
  visitsFrom (files.filter fun f => isScriptPath f.path) 0

/-- Reading a file stores what its visits yield. -/
theorem addFile_eq (l : Library) (f : ScriptFile) :
    l.addFile f = ((f.visits l.counter).flatMap Visit.entries).foldl add
      { l with counter := Block.last [f.block] l.counter } := by
  rw [addFile, ← ScriptFile.block, Block.readAll_eq_visits, ← foldl_add_counter, List.nil_append]
  rfl

theorem counter_foldl_add (entries : List Entry) (l : Library) :
    (entries.foldl add l).counter = l.counter := by
  induction entries generalizing l with
  | nil => rfl
  | cons e rest ih =>
    rw [List.foldl_cons, ih]
    cases e <;> rfl

/-- Reading files stores what their visits yield. -/
theorem exists_foldl_addFile (files : List ScriptFile) (l : Library) :
    ∃ n, files.foldl addFile l =
      ((visitsFrom files l.counter).flatMap Visit.entries).foldl add { l with counter := n } := by
  induction files generalizing l with
  | nil => exact ⟨l.counter, rfl⟩
  | cons f rest ih =>
    obtain ⟨n, hrest⟩ := ih (l.addFile f)
    refine ⟨n, ?_⟩
    have hcounter : (l.addFile f).counter = Block.last [f.block] l.counter := by
      rw [addFile_eq, counter_foldl_add]
    rw [List.foldl_cons, hrest, hcounter, visitsFrom, List.flatMap_append, List.foldl_append,
      addFile_eq, foldl_add_counter]

/-- A load stores what its visits yield. -/
theorem exists_load (files : List ScriptFile) :
    ∃ n, load files =
      ((visits files).flatMap Visit.entries).foldl add { empty with counter := n } :=
  exists_foldl_addFile _ empty

/-! ### Entries -/

/-- What entries bring about was brought about by one of them, or was so before. -/
theorem exists_or_of_foldl_add {P : Library → Prop} {Q : Entry → Prop}
    (hadd : ∀ l e, P (l.add e) → Q e ∨ P l) {entries : List Entry} {l : Library}
    (h : P (entries.foldl add l)) : (∃ e ∈ entries, Q e) ∨ P l := by
  induction entries generalizing l with
  | nil => exact .inr h
  | cons e rest ih =>
    rcases ih h with ⟨later, hlater, hq⟩ | hadded
    · exact .inl ⟨later, List.mem_cons_of_mem _ hlater, hq⟩
    · exact (hadd l e hadded).imp_left fun hq => ⟨e, List.mem_cons_self, hq⟩

theorem eq_or_of_named_add {l : Library} {e : Entry} {name : Text} {script : Script}
    (h : (l.add e).named[name]? = some script) :
    e = .named name script ∨ l.named[name]? = some script := by
  cases e with
  | named other s =>
    simp only [add, Std.TreeMap.getElem?_insert] at h
    split at h
    next heq =>
      obtain rfl := Std.LawfulEqCmp.eq_of_compare heq
      exact .inl (congrArg _ (Option.some.inj h))
    next => exact .inr h
  | block other t => exact .inr h

theorem eq_or_of_blocks_add {l : Library} {e : Entry} {name : Text} {t : Track}
    (h : (l.add e).blocks[name]? = some t) :
    e = .block name t ∨ l.blocks[name]? = some t := by
  cases e with
  | named other s => exact .inr h
  | block other s =>
    simp only [add, Std.TreeMap.getElem?_insert] at h
    split at h
    next heq =>
      obtain rfl := Std.LawfulEqCmp.eq_of_compare heq
      exact .inl (congrArg _ (Option.some.inj h))
    next => exact .inr h

/-- A macro was stored as one of the entries, or was there before. -/
theorem mem_of_named {entries : List Entry} {l : Library} {name : Text} {script : Script}
    (h : (entries.foldl add l).named[name]? = some script) :
    .named name script ∈ entries ∨ l.named[name]? = some script := by
  have hstored := exists_or_of_foldl_add (P := fun l => l.named[name]? = some script)
    (Q := (· = .named name script)) (fun _ _ => eq_or_of_named_add) h
  simpa using hstored

/-- A block was stored as one of the entries, or was there before. -/
theorem mem_of_blocks {entries : List Entry} {l : Library} {name : Text} {t : Track}
    (h : (entries.foldl add l).blocks[name]? = some t) :
    .block name t ∈ entries ∨ l.blocks[name]? = some t := by
  have hstored := exists_or_of_foldl_add (P := fun l => l.blocks[name]? = some t)
    (Q := (· = .block name t)) (fun _ _ => eq_or_of_blocks_add) h
  simpa using hstored

theorem isSome_track?_add_self (l : Library) (e : Entry) :
    ((l.add e).track? e.name).isSome := by
  cases e with
  | named name script => simp [track?, add, Entry.name]
  | block name t =>
    cases hnamed : l.named[name]? <;> simp [track?, add, Entry.name, hnamed]

theorem track?_add_of_ne {e : Entry} {label : Text} (h : e.name ≠ label) (l : Library) :
    (l.add e).track? label = l.track? label := by
  cases e with
  | named name script => exact track?_add_named_of_ne h
  | block name t => exact track?_add_block_of_ne h

/-- The name of an entry leads somewhere once it is stored. -/
theorem isSome_track?_foldl_add {entries : List Entry} {label : Text} (l : Library)
    (h : (l.track? label).isSome ∨ ∃ e ∈ entries, e.name = label) :
    ((entries.foldl add l).track? label).isSome := by
  induction entries generalizing l with
  | nil => simpa using h
  | cons e rest ih =>
    refine ih (l.add e) ?_
    by_cases hname : e.name = label
    · exact .inl (hname ▸ isSome_track?_add_self l e)
    · rw [track?_add_of_ne hname]
      refine h.imp_right fun ⟨e', he', hname'⟩ => ⟨e', ?_, hname'⟩
      rcases List.mem_cons.1 he' with rfl | he'
      · exact absurd hname' hname
      · exact he'

section Load

variable {files : List ScriptFile} {label : Text}

/-- A macro of a load is an entry that a visit yields. -/
theorem exists_named {script : Script} (h : (load files).get? label = some script) :
    ∃ v ∈ visits files, .named label script ∈ v.entries := by
  obtain ⟨n, hload⟩ := exists_load files
  rw [get?, hload] at h
  rcases mem_of_named h with hmem | hempty
  · exact List.mem_flatMap.1 hmem
  · simp [empty] at hempty

/-- A block of a load is an entry that a visit yields. -/
theorem exists_block {t : Track} (h : (load files).blocks[label]? = some t) :
    ∃ v ∈ visits files, .block label t ∈ v.entries := by
  obtain ⟨n, hload⟩ := exists_load files
  rw [hload] at h
  rcases mem_of_blocks h with hmem | hempty
  · exact List.mem_flatMap.1 hmem
  · simp [empty] at hempty

/-- **A label leads to the track of an entry of that name.** -/
theorem exists_entry {t : Track} (h : (load files).track? label = some t) :
    ∃ v ∈ visits files, ∃ e ∈ v.entries, e.name = label ∧ e.track = t := by
  unfold track? at h
  split at h
  next script hnamed =>
    obtain ⟨v, hv, he⟩ := exists_named hnamed
    exact ⟨v, hv, _, he, rfl, Option.some.inj h⟩
  next =>
    obtain ⟨v, hv, he⟩ := exists_block h
    exact ⟨v, hv, _, he, rfl, rfl⟩

/-- **The name of every entry leads somewhere.** -/
theorem isSome_track? {v : Visit} (hv : v ∈ visits files) {e : Entry} (he : e ∈ v.entries) :
    ((load files).track? e.name).isSome := by
  obtain ⟨n, hload⟩ := exists_load files
  rw [hload]
  exact isSome_track?_foldl_add _ (.inr ⟨e, List.mem_flatMap.2 ⟨v, hv, he⟩, rfl⟩)

end Load

/-! ### Visits -/

/-- A visit is one of those that a file takes. -/
theorem exists_file_of_mem_visitsFrom {files : List ScriptFile} {counter : Nat} {v : Visit}
    (h : v ∈ visitsFrom files counter) :
    ∃ f ∈ files, ∃ c, v ∈ f.visits c ∧ f.visits c ⊆ visitsFrom files counter := by
  induction files generalizing counter with
  | nil => simp [visitsFrom] at h
  | cons f rest ih =>
    rcases List.mem_append.1 h with h | h
    · exact ⟨f, List.mem_cons_self, counter, h, List.subset_append_left ..⟩
    · obtain ⟨g, hg, c, hv, hsubset⟩ := ih h
      exact ⟨g, List.mem_cons_of_mem _ hg, c, hv, List.subset_append_of_subset_right _ hsubset⟩

theorem exists_file {files : List ScriptFile} {v : Visit} (h : v ∈ visits files) :
    ∃ f ∈ files, isScriptPath f.path = true ∧ ∃ c, v ∈ f.visits c ∧ f.visits c ⊆ visits files := by
  obtain ⟨f, hf, c, hv, hsubset⟩ := exists_file_of_mem_visitsFrom h
  rw [List.mem_filter] at hf
  exact ⟨f, hf.1, hf.2, c, hv, hsubset⟩

/-- Every block that a visit of a load puts aside is visited in that load. -/
theorem exists_visit_of_pending {files : List ScriptFile} {v : Visit} (hv : v ∈ visits files)
    {b : Block} (hb : b ∈ v.pending) : ∃ w ∈ visits files, w.block = b := by
  obtain ⟨f, -, -, c, hvisit, hsubset⟩ := exists_file hv
  obtain ⟨w, hw, hblock⟩ := Block.exists_visit_of_pending hvisit hb
  exact ⟨w, hsubset hw, hblock⟩

/-- A file is read as such, and otherwise only what a visit puts aside. -/
theorem eq_block_or_exists_pending {files : List ScriptFile} {v : Visit} (hv : v ∈ visits files) :
    (∃ f ∈ files, isScriptPath f.path = true ∧ v.block = f.block) ∨
      ∃ u ∈ visits files, v.block ∈ u.pending := by
  obtain ⟨f, hf, hpath, c, hvisit, hsubset⟩ := exists_file hv
  rcases Block.mem_or_exists_pending hvisit with hroot | ⟨u, hu, hpending⟩
  · exact .inl ⟨f, hf, hpath, List.mem_singleton.1 hroot⟩
  · exact .inr ⟨u, hsubset hu, hpending⟩

/-- The rows of a visit are those of a file, or those of a block with a generated name. -/
theorem eq_block_or_exists_name {files : List ScriptFile} {v : Visit} (hv : v ∈ visits files) :
    (∃ f ∈ files, isScriptPath f.path = true ∧ v.block = f.block) ∨
      ∃ n, v.block.origin = .block (generatedName n) := by
  refine (eq_block_or_exists_pending hv).imp_right fun ⟨u, _, hpending⟩ => ?_
  obtain ⟨n, -, hname, -⟩ := (u.putAside hpending).closed
  exact ⟨n, hname⟩

/-- The name of a block is a generated one. -/
theorem exists_eq_generatedName {files : List ScriptFile} {v : Visit} (hv : v ∈ visits files)
    {name : Text} (hname : v.block.origin = .block name) : ∃ n, name = generatedName n := by
  rcases eq_block_or_exists_name hv with ⟨f, -, -, hblock⟩ | ⟨n, hn⟩
  · simp [hblock, ScriptFile.block] at hname
  · exact ⟨n, Origin.block.inj (hname.symm.trans hn)⟩

/-- The names of the blocks that files hold are those of the numbers that are given out. -/
theorem perm_names_visitsFrom (files : List ScriptFile) (counter : Nat) :
    ∃ k, (Block.names ((visitsFrom files counter).map (·.block))).Perm
      ((List.range' counter k).map generatedName) := by
  induction files generalizing counter with
  | nil => exact ⟨0, List.Perm.refl _⟩
  | cons f rest ih =>
    obtain ⟨m, hlast, hfile⟩ := Block.perm_names_visits [f.block] counter
    obtain ⟨k, hrest⟩ := ih (counter + m)
    refine ⟨m + k, ?_⟩
    rw [visitsFrom, hlast, List.map_append, Block.names_append, ← List.range'_append_1,
      List.map_append]
    exact hfile.append hrest

/-- The blocks of a load have different names. -/
theorem nodup_names_visits (files : List ScriptFile) :
    (Block.names ((visits files).map (·.block))).Nodup := by
  obtain ⟨k, hperm⟩ := perm_names_visitsFrom (files.filter fun f => isScriptPath f.path) 0
  have hrange : (List.range' 0 k).Nodup := List.nodup_range' 1
  rw [visits, hperm.nodup_iff]
  exact List.Pairwise.map generatedName (fun m n hmn heq => hmn (generatedName_inj heq)) hrange

theorem eq_of_nodup_filterMap {α β : Type} {g : α → Option β} {l : List α}
    (h : (l.filterMap g).Nodup) {a b : α} (ha : a ∈ l) (hb : b ∈ l) {x : β} (hga : g a = some x)
    (hgb : g b = some x) : a = b := by
  have hne := List.pairwise_iff_getElem.1 (List.pairwise_filterMap.1 h)
  obtain ⟨i, hi, rfl⟩ := List.getElem_of_mem ha
  obtain ⟨j, hj, rfl⟩ := List.getElem_of_mem hb
  rcases Nat.lt_trichotomy i j with hij | rfl | hij
  · exact absurd rfl (hne i j hi hj hij x hga x hgb)
  · rfl
  · exact absurd rfl (hne j i hj hi hij x hgb x hga)

/-- **No two blocks of a load have the same name.** -/
theorem eq_of_name {files : List ScriptFile} {v w : Visit} (hv : v ∈ visits files)
    (hw : w ∈ visits files) {name : Text} (hvname : v.block.origin.name? = some name)
    (hwname : w.block.origin.name? = some name) : v = w := by
  have hnodup := nodup_names_visits files
  rw [Block.names, List.filterMap_map] at hnodup
  exact eq_of_nodup_filterMap hnodup hv hw hvname hwname

/-! ### Rows -/

/-- The rows of a block stem from rows. -/
structure Stems (rows : List Text) (b : Block) : Prop where
  /-- Those but the last stand behind opening braces. -/
  kept : ∀ x ∈ b.rows.dropLast, ∃ k, List.replicate k '{' ++ x ∈ rows
  /-- The last one may have been cut. -/
  cut : ∀ x ∈ b.rows, ∃ k rest, List.replicate k '{' ++ (x ++ rest) ∈ rows
  /-- In a block between braces a marker stands behind one at least. -/
  marked : ∀ name, b.origin = .block name → ∀ m, Row.marker m ∈ b.rows.dropLast →
    ∃ k, List.replicate (k + 1) '{' ++ Row.marker m ∈ rows

theorem replicate_append_cons (k : Nat) (x : Text) :
    List.replicate k '{' ++ '{' :: x = List.replicate (k + 1) '{' ++ x := by
  rw [List.replicate_succ', List.append_assoc, List.singleton_append]

/-- What a visit puts aside stems from where its own rows stem from. -/
theorem Stems.pending {rows : List Text} {v : Visit} (h : Stems rows v.block) {b : Block}
    (hb : b ∈ v.pending) : Stems rows b where
  kept x hx := by
    obtain ⟨row, hrow, henters⟩ := (v.putAside hb).kept x hx
    obtain ⟨k, hk⟩ := h.kept row hrow
    rcases henters with ⟨rfl, -⟩ | rfl
    · exact ⟨k, hk⟩
    · exact ⟨k + 1, replicate_append_cons k x ▸ hk⟩
  cut x hx := by
    obtain ⟨row, hrow, rest, henters⟩ := (v.putAside hb).cut x hx
    obtain ⟨k, behind, hk⟩ := h.cut row hrow
    rcases henters with ⟨rfl, -⟩ | rfl
    · exact ⟨k, rest ++ behind, by rwa [← List.append_assoc x]⟩
    · refine ⟨k + 1, rest ++ behind, ?_⟩
      rw [← replicate_append_cons, ← List.append_assoc x]
      exact hk
  marked name _ m hm := by
    obtain ⟨row, hrow, henters⟩ := (v.putAside hb).kept _ hm
    obtain ⟨k, hk⟩ := h.kept row hrow
    rcases henters with ⟨rfl, hmarked⟩ | rfl
    · simp [Row.marked?_eq_some_iff.2 rfl] at hmarked
    · exact ⟨k, replicate_append_cons k _ ▸ hk⟩

theorem stems_block (f : ScriptFile) : Stems (rowsOf f) f.block where
  kept x hx := ⟨0, List.dropLast_subset _ hx⟩
  cut x hx := ⟨0, [], by rwa [List.append_nil]⟩
  marked name hname := by simp [ScriptFile.block] at hname

/-- **Every row that is read stems from a row of a file.** -/
theorem stems_of_mem_visits {f : ScriptFile} {counter : Nat} {v : Visit}
    (h : v ∈ f.visits counter) : Stems (rowsOf f) v.block := by
  refine Block.forall_visits (fun w hw b hb => hw.pending hb) [f.block] counter ?_ v h
  simpa using stems_block f

/-! ### Rows behind braces -/

/-- No script file opens a block with the row. -/
def Unopened (files : List ScriptFile) (row : Text) : Prop :=
  ∀ f ∈ files, isScriptPath f.path = true → ¬ f.Opens row

instance (files : List ScriptFile) (row : Text) : Decidable (Unopened files row) :=
  decidable_of_iff ((files.all fun f => !(isScriptPath f.path && decide (f.Opens row))) = true)
    (by simp [Unopened, ← Bool.not_eq_true, Decidable.imp_iff_not_or])

end Library

end PadScript
