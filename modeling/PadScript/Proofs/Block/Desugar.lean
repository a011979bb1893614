import PadScript.Proofs.Block.Reading
import PadScript.Proofs.Cursor.Structured

/-!
# Blocks mean what they say

Braces are sugar: loading a file takes the blocks of a macro apart into tracks with generated names
and jumps between them. This file shows that the meaning is kept.

* `Program.load_text` : loading the file that writes a program down stores its outermost lines under
  the name of the macro, and holds its blocks.
* `Program.interpret_of_kept` : lines that stand for a program have its course, whatever blocks
  around them are open: a block is never within itself, so no jump is skipped.
* `Program.drain_written` : **a macro written with blocks plays what its tree says**, to any depth.
-/

namespace PadScript

/-! ### From a file to its rows -/

namespace Row

theorem clean?_eq_self {row : Text} (hne : row ≠ [])
    (hhead : ∀ c, row.head? = some c → Text.isBlank c = false ∧ c ≠ '-' ∧ c ≠ '#')
    (hlast : ∀ c, row.getLast? = some c → Text.isBlank c = false) (hspace : ' ' ∉ row)
    (htab : '\t' ∉ row) : clean? row = some row := by
  have htrim := Text.trim_eq_self (fun c hc => (hhead c hc).1) hlast
  have hfilter : row.filter (fun c => c != ' ' && c != '\t') = row := by
    rw [List.filter_eq_self]
    intro c hc
    have h1 : c ≠ ' ' := fun h => hspace (h ▸ hc)
    have h2 : c ≠ '\t' := fun h => htab (h ▸ hc)
    simp [h1, h2]
  cases row with
  | nil => exact absurd rfl hne
  | cons c rest =>
    obtain ⟨-, hdash, hhash⟩ := hhead c rfl
    simp [clean?, htrim, hfilter, Ne.symm hdash, Ne.symm hhash]

theorem clean?_marker {name : Text} (h : IsName name) :
    clean? ('<' :: name ++ ['>']) = some ('<' :: name ++ ['>']) := by
  refine clean?_eq_self (by simp) ?_ ?_ ?_ ?_
  · intro c hc
    obtain rfl : '<' = c := by simpa using hc
    decide
  · intro c hc
    rw [List.getLast?_concat] at hc
    obtain rfl := Option.some.inj hc
    decide
  · simp [h.space]
  · simp [h.tab]

theorem clean?_closing {suffix : Text} (h : IsSuffix suffix) :
    clean? ('}' :: suffix) = some ('}' :: suffix) := by
  have hblank : ∀ c ∈ '}' :: suffix, Text.isBlank c = false := by
    intro c hc
    rcases List.mem_cons.1 hc with rfl | hc
    · decide
    · exact h.blank c hc
  refine clean?_eq_self (by simp) ?_ ?_ ?_ ?_
  · intro c hc
    obtain rfl : '}' = c := by simpa using hc
    decide
  · exact fun c hc => hblank c (List.mem_of_getLast? hc)
  · exact fun hc => absurd (hblank _ hc) (by decide)
  · exact fun hc => absurd (hblank _ hc) (by decide)

theorem marked?_marker (name : Text) : marked? ('<' :: name ++ ['>']) = some name :=
  Text.before?_append name ['>']

end Row

namespace Program

/-- A written row is one row that cleaning keeps and that is no jump. -/
theorem written_rows {p : Program} (hp : p.WellFormed) {row : Text} (h : row ∈ p.written) :
    Row.clean? row = some row ∧ '\n' ∉ row ∧ row.head? ≠ some '[' := by
  induction p with
  | done => simp [written] at h
  | row line rest ih =>
    rcases List.mem_cons.1 h with rfl | h
    · exact ⟨hp.1.clean, hp.1.newline, hp.1.jump⟩
    · exact ih hp.2 h
  | block inner suffix rest ihinner ihrest =>
    obtain ⟨hinner, hsuffix, hrest⟩ := hp
    simp only [written, List.mem_cons, List.mem_append] at h
    rcases h with rfl | h | rfl | h
    · exact ⟨by decide, by decide, by decide⟩
    · exact ihinner hinner h
    · refine ⟨Row.clean?_closing hsuffix, ?_, by simp⟩
      intro hc
      rcases List.mem_cons.1 hc with hc | hc
      · exact absurd hc (by decide)
      · exact absurd (hsuffix.blank _ hc) (by decide)
    · exact ihrest hrest h

/-- The rows of the file that writes a program down. -/
theorem rowsOf_text {p : Program} (hp : p.WellFormed) {name : Text} (hname : Row.IsName name)
    (path : Text) :
    Library.rowsOf ⟨path, p.text name⟩ = ('<' :: name ++ ['>']) :: p.written := by
  have hrows : ∀ row ∈ ('<' :: name ++ ['>']) :: p.written,
      Row.clean? row = some row ∧ '\n' ∉ row ∧ row.head? ≠ some '[' := by
    intro row h
    rcases List.mem_cons.1 h with rfl | h
    · exact ⟨Row.clean?_marker hname, by simp [hname.newline], by simp⟩
    · exact written_rows hp h
  have hempty : Row.clean? [] = none := by decide
  have hclean : ∀ rows : List Text, (∀ row ∈ rows, Row.clean? row = some row) →
      (rows ++ [[]]).filterMap Row.clean? = rows := by
    intro rows h
    induction rows with
    | nil => simp [hempty]
    | cons row rest ih =>
      have hrest := ih fun r hr => h r (List.mem_cons_of_mem _ hr)
      rw [List.cons_append, List.filterMap_cons_some (h row List.mem_cons_self), hrest]
  rw [Library.rowsOf, Text.rows, text, Text.pieces_flatMap fun row h => (hrows row h).2.1,
    hclean _ fun row h => (hrows row h).1]
  rw [List.map_congr_left fun row h => Row.qualify_eq_self (hrows row h).2.2 _, List.map_id']

/-! ### From rows to a library -/

/-- The macro of a name, if it has lines. -/
def macroEntries (name : Text) (lines : List Text) : List Entry :=
  ((track? lines).map fun t => .named name ⟨t, ∅⟩).toList

/-- The rows of the file come to the macro, and put the blocks of the outermost level aside. -/
theorem ofRows_marked {p : Program} (hp : p.WellFormed) (tag name : Text) :
    let r := Reading.ofRows ⟨.file tag, ('<' :: name ++ ['>']) :: p.written⟩ [] 0 []
    r.entries = macroEntries (tag ++ name) (p.lines 0) ∧ r.counter = (p.blocks 0).length ∧
      r.pending = (p.blocks 0).reverse.map toBlock := by
  have hmark : Reading.addRow (.file tag) ⟨none, [], ∅, none, [], 0, []⟩ ('<' :: name ++ ['>']) =
      ⟨some (tag ++ name), [], ∅, none, [], 0, []⟩ := by
    rw [Reading.addRow, Row.marked?_marker]
    rfl
  simp only [Reading.ofRows, Origin.name?, List.foldl_cons]
  rw [hmark, foldl_addRow_outside hp _ rfl]
  refine ⟨?_, by simp [Reading.endSegment], by simp [Reading.endSegment]⟩
  by_cases hlines : p.lines 0 = []
  · simp [Reading.endSegment, macroEntries, track?, hlines]
  · simp [Reading.endSegment, Origin.entry, macroEntries, track?, hlines]

/-- **Loading the file that writes a program down** stores its outermost lines under the name of the
macro, unless there are none, and leaves a library in which they stand for the program. -/
theorem load_text {p : Program} (hp : p.WellFormed) {path name : Text}
    (hpath : isScriptPath path = true) (hname : Row.IsName name) :
    let library := Library.load [⟨path, p.text name⟩]
    library.get? (tagOf path ++ name) = (track? (p.lines 0)).map (⟨·, ∅⟩) ∧
      Kept library 0 p (p.lines 0) := by
  obtain ⟨hentries, hcounter, hpending⟩ := ofRows_marked hp (tagOf path) name
  have hwaiting : Waiting (p.blocks 0).reverse (p.blocks 0).length := by
    have hnone : Waiting [] 0 := ⟨by simp, by simp [numbers], by simp [numbers]⟩
    simpa using hnone.append_blocks hp
  obtain ⟨more, hread, hyields⟩ :=
    exists_yields_readAll hwaiting (macroEntries (tagOf path ++ name) (p.lines 0))
  generalize hlast : (Block.readAll ((p.blocks 0).reverse.map toBlock)
    (macroEntries (tagOf path ++ name) (p.lines 0)) (p.blocks 0).length).2 = last
  -- the macro is stored first, and then the blocks
  let first : Library :=
    (macroEntries (tagOf path ++ name) (p.lines 0)).foldl .add ⟨∅, ∅, last⟩
  have hload : Library.load [⟨path, p.text name⟩] = more.foldl .add first := by
    simp only [Library.load, List.filter_cons, hpath, if_true, List.filter_nil, List.foldl_cons,
      List.foldl_nil, Library.addFile, rowsOf_text hp hname, Library.empty]
    rw [Block.readAll_cons, hentries, hcounter, hpending, hread, hlast, Library.foldl_add_counter,
      List.foldl_append]
  have hfirst : first.named[tagOf path ++ name]? = (track? (p.lines 0)).map (⟨·, ∅⟩) := by
    cases h : track? (p.lines 0) <;> simp [first, macroEntries, h, Library.add]
  have hfree : ∀ k, first.track? (generatedName k) = none := by
    intro k
    cases h : track? (p.lines 0) with
    | none => simp [first, macroEntries, h, Library.track?]
    | some t =>
      simp only [first, macroEntries, h, Option.map_some, Option.toList_some, List.foldl_cons,
        List.foldl_nil]
      rw [Library.track?_add_named_of_ne (tag_append_ne_generatedName path name k)]
      simp [Library.track?]
  simp only [hload]
  refine ⟨?_, kept_of_heldBy (Nat.le_refl 0) fun b hb => ?_⟩
  · rw [Library.get?, Library.named_foldl_add (fun e he => ?_), hfirst]
    obtain ⟨k, t, rfl, -⟩ := hyields.due e he
    exact ⟨_, t, rfl⟩
  · exact hyields.holds first (fun k _ => hfree k) b (List.mem_reverse.2 hb)

/-! ### From a library to a course -/

theorem ofLine_jumpLine (n : Nat) (suffix : Text) :
    Directive.ofLine (jumpLine n suffix) = .jump (generatedName n) suffix := by
  have hcut := Text.cut?_append (not_mem_generatedName n).2 suffix
  have hjump : Directive.jump? (jumpLine n suffix) = some (generatedName n, suffix) := hcut
  rw [Directive.ofLine, hjump]

theorem interpret_cons_of_isPlain {library : Library} {opened : List Text} {line : Text}
    (h : Row.IsPlain line) (rest : List Text) :
    interpret library opened (line :: rest) =
      (rowCourse line).andThen (interpret library opened rest) := by
  have hjump : Directive.jump? line = none := by
    unfold Directive.jump?
    split
    · exact absurd rfl h.jump
    · rfl
  by_cases hbody : line = Directive.bodyWord
  · have hd : Directive.ofLine line = .body := by rw [Directive.ofLine, hjump]; simp [hbody]
    rw [interpret_cons_of_body rest hd, rowCourse, if_pos hbody]
  · cases hexec : Text.after? Directive.execWord line with
    | some source =>
      have hd : Directive.ofLine line = .exec source := by
        rw [Directive.ofLine, hjump]; simp [hbody, hexec]
      rw [interpret_cons_of_exec rest hd, rowCourse, if_neg hbody, hexec]
    | none =>
      have hd : Directive.ofLine line = .action line := by
        rw [Directive.ofLine, hjump]; simp [hbody, hexec]
      rw [interpret_cons_of_action rest hd, rowCourse, if_neg hbody, hexec]

/-- Lines that stand for a program have its course, whichever blocks of lower numbers are open. -/
theorem interpret_of_kept {library : Library} {n : Nat} {p : Program} {lines : List Text}
    (h : Kept library n p lines) (hp : p.WellFormed) {opened : List Text}
    (hopened : ∀ label ∈ opened, ∃ m < n, label = generatedName m) :
    interpret library opened lines = p.course := by
  induction h generalizing opened with
  | done => exact interpret_nil
  | row _ ih =>
    obtain ⟨hline, hrest⟩ := hp
    rw [interpret_cons_of_isPlain hline, ih hrest hopened, course]
  | empty _ ih =>
    obtain ⟨-, -, hrest⟩ := hp
    rw [ih hrest hopened]
    simp [course]
  | @block n m inner rest suffix lines innerLines hle _ htrack _ ihinner ihrest =>
    obtain ⟨hinner, -, hrest⟩ := hp
    -- inside the block its own name is open too, and the blocks in it have higher numbers
    have hopen : ∀ label ∈ generatedName m :: opened, ∃ k < m + 1, label = generatedName k := by
      intro label hlabel
      rcases List.mem_cons.1 hlabel with rfl | hlabel
      · exact ⟨m, Nat.lt_succ_self m, rfl⟩
      · obtain ⟨k, hk, rfl⟩ := hopened label hlabel
        exact ⟨k, by omega, rfl⟩
    have hbody := ihinner hinner hopen
    by_cases hlines : innerLines = []
    · -- a block that holds nothing but empty blocks leads nowhere
      subst hlines
      rw [interpret_nil] at hbody
      have hnone : library.enterable? opened (generatedName m) = none := by
        simp [Library.enterable?, htrack, track?]
      rw [interpret_cons_of_pass lines (ofLine_jumpLine m suffix) hnone, ihrest hrest hopened,
        course, ← hbody, Course.repeatedBy_skip]
    · have hclosed : generatedName m ∉ opened := by
        intro hmem
        obtain ⟨k, hk, heq⟩ := hopened _ hmem
        have := generatedName_inj heq
        omega
      have hsome : library.enterable? opened (generatedName m) = some ⟨innerLines⟩ := by
        rw [Library.enterable?_eq_some_iff]
        exact ⟨by simp [htrack, track?, hlines], by simp [Track.isEmpty, hlines], hclosed⟩
      rw [interpret_cons_of_enter lines (ofLine_jumpLine m suffix) hsome, hbody,
        ihrest hrest hopened, course]

/-- A program with a block inside a block, an empty block, and suffixes of each kind. -/
def nested : Program :=
  .row "EXEC>n=2".toList <|
    .block
      (.row "A:10".toList <| .block .done [] <|
        .block (.row "body:".toList <| .row "B:10".toList .done) "?n>1".toList .done)
      "*n".toList <|
    .row "X:10".toList .done

theorem nested_wellFormed : nested.WellFormed := by decide

end Program

end PadScript
