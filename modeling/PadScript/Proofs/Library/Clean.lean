import PadScript.Proofs.Library.Bounds
import PadScript.Proofs.Library.Labels

/-!
# What is stored is clean

Rows are cleaned when a file is read, and then cut at braces, nested, and read again. A line that is
stored in the end is still no marker, no default and no beginning of a block, and it has no gaps but
those of a tag: the tag is put before a label only when the row is clean, and the path of a file may
hold spaces.

* `Reading.mem_lines_addRow` : a line is a row, or a jump with what stands behind a closing brace.
* `Visit.exists_becomes` : every line of a visit comes from one of its rows.
* `Library.load_clean` : **a load ends, and every line that it stores is clean.**
* `Library.holds_gap` : a line has the gaps of its tag.
-/

namespace PadScript

/-- The spaces and tabs of a text. -/
def Text.gaps (t : Text) : Text := t.filter fun c => c == ' ' || c == '\t'

theorem Text.gaps_append (t more : Text) : gaps (t ++ more) = gaps t ++ gaps more :=
  List.filter_append ..

/-! ### What a row becomes -/

namespace Row

/-- The line is no row that opens a segment or a block, and none that declares a default. -/
structure IsInert (line : Text) : Prop where
  /-- It is not empty. -/
  nonempty : line ≠ []
  /-- It opens no block. -/
  opens : line.head? ≠ some '{'
  /-- It opens no segment. -/
  marker (name : Text) : line ≠ marker name
  /-- It declares no default. -/
  declaration (key value : Text) : key ≠ [] → '=' ∉ key →
    line ≠ defaultWord ++ (key ++ '=' :: value)

/-- What becomes of a row: a line, or the jump to a block that it closes. -/
inductive Becomes (row : Text) : Text → Prop
  /-- It is a line as it is. -/
  | line : marked? row = none → Text.after? ['{'] row = none → declaration? row = none →
      Becomes row row
  /-- It closes a block. -/
  | jump (n : Nat) {before suffix : Text} : row = before ++ '}' :: suffix →
      Becomes row (jump (generatedName n) suffix)

variable {row line : Text}

theorem isInert_jump (label suffix : Text) : IsInert (jump label suffix) where
  nonempty := nofun
  opens := nofun
  marker _ := nofun
  declaration _ _ _ _ := nofun

/-- **What a row becomes is inert.** -/
theorem Becomes.isInert (h : Becomes row line) (hrow : row ≠ []) : IsInert line := by
  cases h with
  | jump n _ => exact isInert_jump _ _
  | line hmarked hopens hdeclared =>
    refine ⟨hrow, fun hhead => ?_, fun name hname => ?_, fun key value hkey hequal hdefault => ?_⟩
    · obtain ⟨rest, hrest⟩ := List.head?_eq_some_iff.1 hhead
      rw [Text.after?_eq_some_iff.2 hrest] at hopens
      cases hopens
    · rw [marked?_eq_some_iff.2 hname] at hmarked
      cases hmarked
    · simp [declaration?, Text.after?_eq_some_iff.2 hdefault, Text.cut?_append hequal, hkey]
        at hdeclared

theorem ne_nil_of_clean? {written : Text} (h : clean? written = some row) : row ≠ [] := by
  simp only [clean?] at h
  split at h
  · cases h
  next hkept =>
    have hne : Text.trim written ≠ [] := fun hnil => hkept (by simp [hnil])
    -- the last sign is no blank, so it is kept
    obtain ⟨c, hlast⟩ := Option.ne_none_iff_exists'.1 (mt List.getLast?_eq_none_iff.1 hne)
    have hblank : Text.isBlank c = false := by
      have hhead := List.head?_dropWhile_not Text.isBlank (written.dropWhile Text.isBlank).reverse
      rw [Text.trim, List.getLast?_reverse] at hlast
      simpa [hlast] using hhead
    have hkeeps : (c != ' ' && c != '\t') = true := by
      rw [Bool.and_eq_true, bne_iff_ne, bne_iff_ne]
      constructor
      · rintro rfl
        cases hblank
      · rintro rfl
        cases hblank
    rw [← Option.some.inj h]
    exact List.ne_nil_of_mem (List.mem_filter.2 ⟨List.mem_of_getLast? hlast, hkeeps⟩)

theorem gaps_of_clean? {written : Text} (h : clean? written = some row) : row.gaps = [] := by
  simp only [clean?] at h
  split at h
  · cases h
  · rw [← Option.some.inj h, Text.gaps, List.filter_filter, List.filter_eq_nil_iff]
    intro c _
    cases hspace : c == ' ' <;> cases htab : c == '\t' <;> simp [bne, hspace, htab]

end Row

namespace Reading

variable {o : Origin} {r : Reading} {row line : Text}

theorem mem_lines_closeBlock {rows : List Text} {suffix : Text}
    (h : line ∈ (r.closeBlock rows suffix).lines) :
    line ∈ r.lines ∨ line = Row.jump (generatedName r.counter) suffix := by
  by_cases hrows : rows = []
  · rw [hrows, closeBlock_nil] at h
    exact .inl h
  · rw [closeBlock_of_ne_nil hrows] at h
    exact (List.mem_append.1 h).imp_right List.mem_singleton.1

theorem mem_lines_addToBlock {b : OpenBlock} {part : Text}
    (h : line ∈ (r.addToBlock b part).lines) :
    line ∈ r.lines ∨ ∃ n before suffix, part = before ++ '}' :: suffix ∧
      line = Row.jump (generatedName n) suffix := by
  simp only [addToBlock] at h
  split at h
  next suffix hsuffix =>
    exact (mem_lines_closeBlock h).imp_right fun hjump =>
      ⟨_, _, suffix, Row.eq_append_of_scanBlock hsuffix, hjump⟩
  next => exact .inl h

/-- **A line is a row, or a jump with what stands behind a closing brace.** -/
theorem mem_lines_addRow (h : line ∈ (r.addRow o row).lines) :
    line ∈ r.lines ∨ Row.Becomes row line := by
  unfold addRow at h
  split at h
  next => simp [mark, endSegment] at h
  next =>
    refine (mem_lines_addToBlock h).imp_right ?_
    rintro ⟨n, before, suffix, hrow, rfl⟩
    exact .jump n hrow
  next rest _ _ hopening =>
    refine (mem_lines_addToBlock h).imp_right ?_
    rintro ⟨n, before, suffix, rfl, rfl⟩
    have hrow := Text.after?_eq_some_iff.1 hopening
    exact .jump n (hrow.trans (List.append_assoc ['{'] before _).symm)
  next hmarked _ hopens =>
    unfold addLine at h
    split at h
    next => split at h <;> exact .inl h
    next hdeclared =>
      refine (List.mem_append.1 h).imp_right fun hline => ?_
      rw [List.mem_singleton.1 hline]
      exact .line hmarked hopens hdeclared

end Reading

/-! ### Lines of visits -/

namespace Visit

variable {v : Visit} {read : List Text} {r : Reading}

theorem Reads.exists_becomes (h : v.Reads read r) :
    (∀ line ∈ r.lines, ∃ row ∈ read, Row.Becomes row line) ∧
      ∀ e ∈ r.entries, ∀ line ∈ e.track.lines, ∃ row ∈ read, Row.Becomes row line := by
  induction h with
  | start => simp [Visit.start]
  | @row read r row h ih =>
    have hmore : ∀ {line}, (∃ old ∈ read, Row.Becomes old line) →
        ∃ old ∈ read ++ [row], Row.Becomes old line := by
      rintro line ⟨old, hold, hbecomes⟩
      exact ⟨old, List.mem_append_left _ hold, hbecomes⟩
    refine ⟨fun line hline => ?_, fun e he line hline => ?_⟩
    · rcases Reading.mem_lines_addRow hline with hline | hbecomes
      · exact hmore (ih.1 line hline)
      · exact ⟨row, by simp, hbecomes⟩
    · cases hrow : Row.marked? row with
      | none =>
        rw [(Reading.same_segment hrow v.block.origin r).2] at he
        exact hmore (ih.2 e he line hline)
      | some name =>
        obtain rfl := Row.marked?_eq_some_iff.1 hrow
        obtain ⟨own, heq, hown⟩ := Reading.exists_endSegment v.block.origin r
        have hmem : e ∈ r.entries ++ own := by
          rw [Reading.addRow_marker] at he
          exact heq ▸ he
        rcases List.mem_append.1 hmem with he | he
        · exact hmore (ih.2 e he line hline)
        · obtain ⟨-, name, -, rfl⟩ := hown e he
          exact hmore (ih.1 line (by simpa using hline))

/-- **Every line of a visit comes from one of its rows.** -/
theorem exists_becomes (v : Visit) {e : Entry} (he : e ∈ v.entries) {line : Text}
    (hline : line ∈ e.track.lines) : ∃ row ∈ v.block.rows, Row.Becomes row line := by
  obtain ⟨r, hreads, hreading⟩ := exists_reads v
  obtain ⟨hlines, hentries⟩ := hreads.exists_becomes
  obtain ⟨own, heq, hown⟩ := Reading.exists_endSegment v.block.origin r
  rw [entries, hreading, heq] at he
  rcases List.mem_append.1 he with he | he
  · exact hentries e he line hline
  · obtain ⟨-, name, -, rfl⟩ := hown e he
    exact hlines line (by simpa using hline)

end Visit

/-! ### No row is empty -/

/-- The rows that are put aside are not empty. -/
structure Reading.Filled (r : Reading) : Prop where
  /-- Those of the open block are not. -/
  opened : ∀ x ∈ r.openRows, x ≠ []
  /-- Those of the blocks that wait are not. -/
  pending : ∀ b ∈ r.pending, ∀ x ∈ b.rows, x ≠ []

namespace Reading.Filled

variable {o : Origin} {r : Reading}

theorem closeBlock (h : r.Filled) {rows : List Text} (hrows : ∀ x ∈ rows, x ≠ [])
    (suffix : Text) : (r.closeBlock rows suffix).Filled := by
  by_cases hempty : rows = []
  · rw [hempty, closeBlock_nil]
    exact ⟨by simp [openRows], h.pending⟩
  · rw [closeBlock_of_ne_nil hempty]
    refine ⟨by simp [openRows], fun b hb => ?_⟩
    rcases List.mem_cons.1 hb with rfl | hb
    · exact hrows
    · exact h.pending b hb

theorem addToBlock (h : r.Filled) {b : OpenBlock} (hb : ∀ x ∈ b.rows, x ≠ []) (row : Text) :
    (r.addToBlock b row).Filled := by
  have hrows : ∀ x ∈ (if (Row.scanBlock b.depth row).inner.isEmpty then b.rows
      else b.rows ++ [(Row.scanBlock b.depth row).inner]), x ≠ [] := by
    intro x hx
    split at hx
    · exact hb x hx
    next hinner =>
      rcases List.mem_append.1 hx with hx | hx
      · exact hb x hx
      · rw [List.mem_singleton.1 hx]
        exact fun hnil => hinner (by simp [hnil])
  simp only [Reading.addToBlock]
  split
  next suffix _ => exact h.closeBlock hrows suffix
  next => exact ⟨by simpa [openRows] using hrows, h.pending⟩

theorem addRow (h : r.Filled) (row : Text) : (r.addRow o row).Filled := by
  unfold Reading.addRow
  split
  next => exact ⟨by simp [openRows, mark], h.pending⟩
  next b _ hblock => exact h.addToBlock (fun x hx => h.opened x (by simpa [openRows, hblock])) row
  next rest _ _ _ => exact h.addToBlock (by simp) rest
  next =>
    unfold addLine
    split
    · split
      · exact ⟨h.opened, h.pending⟩
      · exact h
    · exact ⟨h.opened, h.pending⟩

end Reading.Filled

theorem Visit.Reads.filled {v : Visit} {read : List Text} {r : Reading} (h : v.Reads read r) :
    r.Filled := by
  induction h with
  | start => exact ⟨by simp [Reading.openRows, Visit.start], by simp [Visit.start]⟩
  | row row _ ih => exact ih.addRow row

/-! ### Lines of a file -/

namespace ScriptFile

/-- The tag of the file is put before a label. -/
def HasTagged (f : ScriptFile) : Prop := ∃ rest, '[' :: rest ∈ f.cleanRows ∧ '.' ∉ Row.label rest

/-- The line can be stored for the file: it is inert, and its gaps are those of the tag that is put
before a label. -/
structure Stores (f : ScriptFile) (line : Text) : Prop extends Row.IsInert line where
  /-- Its gaps stand in the tag. -/
  gaps : line.gaps <:+: Text.gaps (tagOf f.path)
  /-- If it has any, then the tag is put before a label. -/
  tagged : line.gaps ≠ [] → f.HasTagged

variable {f : ScriptFile} {row : Text}

/-- The gaps of a row are those of the tag before its label. -/
theorem gaps_of_mem_rowsOf (h : row ∈ Library.rowsOf f) :
    row.gaps = [] ∨ row.gaps = Text.gaps (tagOf f.path) ∧ f.HasTagged := by
  obtain ⟨written, hwritten, rfl⟩ := List.mem_map.1 h
  obtain ⟨_, -, hclean⟩ := List.mem_filterMap.1 hwritten
  have hgaps := Row.gaps_of_clean? hclean
  unfold Row.qualify
  split
  next rest =>
    split
    · exact .inl hgaps
    next hdot =>
      refine .inr ⟨?_, rest, hwritten, by simpa using hdot⟩
      have hrest : Text.gaps rest = [] := hgaps
      have hrow : Text.gaps ('[' :: tagOf f.path ++ rest) =
          Text.gaps (tagOf f.path) ++ Text.gaps rest := Text.gaps_append ('[' :: tagOf f.path) rest
      rw [hrow, hrest, List.append_nil]
  next => exact .inl hgaps

/-- A part of a row has no other gaps. -/
theorem gaps_of_infix {part : Text} (hrow : row ∈ Library.rowsOf f) (hpart : part <:+: row) :
    part.gaps <:+: Text.gaps (tagOf f.path) ∧ (part.gaps ≠ [] → f.HasTagged) := by
  have hgaps : part.gaps <:+: row.gaps := hpart.filter _
  rcases gaps_of_mem_rowsOf hrow with hnone | ⟨htag, htagged⟩
  · rw [hnone, List.infix_nil] at hgaps
    rw [hgaps]
    exact ⟨List.nil_infix, fun h => absurd rfl h⟩
  · rw [htag] at hgaps
    exact ⟨hgaps, fun _ => htagged⟩

theorem ne_nil_of_mem_rowsOf (h : row ∈ Library.rowsOf f) : row ≠ [] := by
  obtain ⟨written, hwritten, rfl⟩ := List.mem_map.1 h
  obtain ⟨_, -, hclean⟩ := List.mem_filterMap.1 hwritten
  have hhead := Row.head?_qualify (tagOf f.path) written
  intro hnil
  rw [hnil, eq_comm, List.head?_nil, List.head?_eq_none_iff] at hhead
  exact Row.ne_nil_of_clean? hclean hhead

theorem ne_nil_of_mem_visits {counter : Nat} {v : Visit} (hv : v ∈ f.visits counter) :
    ∀ x ∈ v.block.rows, x ≠ [] := by
  refine Block.forall_visits (P := fun b => ∀ x ∈ b.rows, x ≠ []) (fun w _ b hb => ?_) [f.block]
    counter ?_ v hv
  · obtain ⟨r, hreads, hreading⟩ := w.exists_reads
    have hpending : w.pending = r.pending := by rw [Visit.pending, hreading]; rfl
    exact hreads.filled.pending b (hpending ▸ hb)
  · simpa [block] using fun x => ne_nil_of_mem_rowsOf

/-- The numerals of blocks have no gaps. -/
theorem gaps_generatedName (n : Nat) : Text.gaps (generatedName n) = [] := by
  have hall : ∀ d < 16, (Nat.digitChar d == ' ' || Nat.digitChar d == '\t') = false := by decide
  refine List.filter_eq_nil_iff.2 fun c hc => ?_
  rcases List.mem_cons.1 hc with rfl | hc
  · decide
  · obtain ⟨d, hd, rfl⟩ := exists_digit_of_mem hc
    simp [hall d hd]

theorem gaps_jump (n : Nat) (suffix : Text) :
    Text.gaps (Row.jump (generatedName n) suffix) = suffix.gaps := by
  have hjump : Text.gaps (Row.jump (generatedName n) suffix) =
      Text.gaps (generatedName n) ++ suffix.gaps := Text.gaps_append ('[' :: generatedName n) _
  rw [hjump, gaps_generatedName, List.nil_append]

/-- **Every line that a file yields can be stored for it.** -/
theorem stores_of_mem_visits {counter : Nat} {v : Visit} (hv : v ∈ f.visits counter) {e : Entry}
    (he : e ∈ v.entries) {line : Text} (hline : line ∈ e.track.lines) : f.Stores line := by
  obtain ⟨row, hrow, hbecomes⟩ := v.exists_becomes he hline
  have hinert := hbecomes.isInert (ne_nil_of_mem_visits hv row hrow)
  obtain ⟨k, rest, hstems⟩ := (Library.stems_of_mem_visits hv).cut row hrow
  cases hbecomes with
  | line =>
    have hpart : line <:+: List.replicate k '{' ++ (line ++ rest) :=
      ⟨List.replicate k '{', rest, List.append_assoc ..⟩
    obtain ⟨hgaps, htagged⟩ := gaps_of_infix hstems hpart
    exact ⟨hinert, hgaps, htagged⟩
  | @jump n before suffix hcut =>
    have hsuffix : suffix <:+: List.replicate k '{' ++ (row ++ rest) :=
      ⟨List.replicate k '{' ++ before ++ ['}'], rest, by simp [hcut]⟩
    obtain ⟨hgaps, htagged⟩ := gaps_of_infix hstems hsuffix
    rw [← gaps_jump n] at hgaps htagged
    exact ⟨hinert, hgaps, htagged⟩

end ScriptFile

namespace Library

variable {files : List ScriptFile}

/-- **Loading ends and yields a clean library.** A load that takes no more rounds for a file than
that has characters reads everything, with no slice out of range and no depth below zero. Every
track that is stored has lines, and comes from a file: each line is not empty, begins with no brace,
is no marker and declares no default, and its gaps, if it has any, are those of the tag that the
file puts before a label. -/
theorem load_clean (files : List ScriptFile) :
    (∀ rounds, (∀ f ∈ files, f.block.weight ≤ rounds) →
      load? rounds files = some (load files)) ∧
    ∀ t, (load files).Holds t → t.lines ≠ [] ∧
      ∃ f ∈ files, isScriptPath f.path = true ∧ f.Yields t ∧ ∀ line ∈ t.lines, f.Stores line := by
  refine ⟨fun rounds hrounds => load?_eq hrounds, fun t ht => ?_⟩
  obtain ⟨v, hv, e, he, rfl⟩ := ht.exists_entry
  obtain ⟨f, hf, hpath, counter, hvisit, -⟩ := exists_file hv
  exact ⟨(v.isSegment he).lines, f, hf, hpath, ⟨counter, v, hvisit, e, he, rfl⟩,
    fun line hline => ScriptFile.stores_of_mem_visits hvisit he hline⟩

/-- A file with a space in its path, and braces that do not match. -/
def spaced : ScriptFile :=
  ⟨"a b.m".toList, "<x>\n[ t]\n\x7b\x7b\nA B\n\x7d*2\n\x7d\x7d\n\x7b".toList⟩

/-- The lines of its macro. -/
def spacedTrack : Track := ⟨["[a b.t]".toList, "[@0]\x7d".toList]⟩

theorem load_clean_spaced :
    (∀ f ∈ [spaced], f.block.weight ≤ 30) ∧ load? 30 [spaced] = some (load [spaced]) ∧
      (load [spaced]).Holds spacedTrack ∧ spacedTrack.lines ≠ [] ∧
      ∃ f ∈ [spaced], isScriptPath f.path = true ∧ f.Yields spacedTrack ∧
        ∀ line ∈ spacedTrack.lines, f.Stores line := by
  obtain ⟨hends, hclean⟩ := load_clean [spaced]
  have hrounds : ∀ f ∈ [spaced], f.block.weight ≤ 30 := by
    intro f hf
    obtain rfl := List.mem_singleton.1 hf
    decide +kernel
  have hfound : (load [spaced]).track? "a b.x".toList = some spacedTrack := by decide +kernel
  have hholds := holds_of_track? hfound
  exact ⟨hrounds, hends 30 hrounds, hholds, hclean spacedTrack hholds⟩

/-- **A line has the gaps of its tag.** -/
theorem holds_gap :
    isScriptPath spaced.path = true ∧ (load [spaced]).Holds spacedTrack ∧
      "[a b.t]".toList ∈ spacedTrack.lines ∧ ' ' ∈ "[a b.t]".toList := by
  have hfound : (load [spaced]).track? "a b.x".toList = some spacedTrack := by decide +kernel
  exact ⟨by decide, holds_of_track? hfound, by decide, by decide⟩

end Library

end PadScript
