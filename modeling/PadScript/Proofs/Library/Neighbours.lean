import PadScript.Proofs.Library.Order

/-!
# A file behind another text

A segment ends at the next marker, whatever is open then. So a text may stand before a file that
begins with a marker, and may leave braces open or close too many: the macros and the blocks of the
file are the same as without it, but for the numbers of the blocks. What has to be excluded are rows
that name macros or blocks by themselves, and tags that do.

* `Reading.mark_eq_onto` : a marker forgets what is open.
* `ScriptFile.visits_behind` : the visits of the file come first, and then those of the blocks that
  stand before it.
* `Library.renamed_behind` : **a text before a file changes the numbers of its blocks only.**
* `Library.not_renamed_behind` : a path that looks like a jump can mix up the blocks of both.
-/

namespace PadScript

/-! ### Rows, one after the other -/

/-- A marker forgets what is open: what follows is read as behind a beginning. -/
theorem Reading.mark_eq_onto (o : Origin) (name : Text) (r : Reading) :
    r.mark o name = (mark o name ⟨none, [], ∅, none, [], r.counter, []⟩).onto
      (r.endSegment o).entries (r.endSegment o).pending := by
  simp [mark, endSegment, onto]

/-- Blocks are visited one after the other. -/
theorem Block.visits_append (blocks more : List Block) (counter : Nat) :
    visits (blocks ++ more) counter =
      visits blocks counter ++ visits more (last blocks counter) := by
  induction blocks, counter using visits_induction with
  | nil counter => rw [visits_nil, last_nil, List.nil_append, List.nil_append]
  | cons b rest counter ih =>
    rw [List.cons_append, visits_cons, ← List.append_assoc, ih, visits_cons, last_cons,
      List.cons_append]

namespace Row

theorem jump_generatedName_inj {m n : Nat} {suffix suffix' : Text}
    (h : jump (generatedName m) suffix = jump (generatedName n) suffix') :
    m = n ∧ suffix = suffix' := by
  have hjump : ∀ k t, Directive.jump? (jump (generatedName k) t) = some (generatedName k, t) :=
    fun k t => jump?_eq_some_iff.2 ⟨(not_mem_generatedName k).2, rfl⟩
  have hsame := hjump m suffix
  rw [h, hjump n suffix'] at hsame
  obtain ⟨hname, hsuffix⟩ := Prod.mk.inj (Option.some.inj hsame)
  exact ⟨generatedName_inj hname.symm, hsuffix.symm⟩

/-- A jump to a block has the number that stands for the other one. -/
theorem Renamed.eq_jump {ρ : Nat → Nat} {n : Nat} {suffix row : Text}
    (h : Renamed ρ (Row.jump (generatedName n) suffix) row) :
    row = Row.jump (generatedName (ρ n)) suffix := by
  generalize hjump : Row.jump (generatedName n) suffix = first at h
  cases h with
  | plain hplain => exact absurd hjump.symm (hplain n suffix)
  | jump m suffix' =>
    obtain ⟨rfl, rfl⟩ := jump_generatedName_inj hjump
    rfl

end Row

/-! ### Two texts in one file -/

namespace ScriptFile

/-- The text as a file of the same path. -/
def front (f : ScriptFile) (before : Text) : ScriptFile := ⟨f.path, before⟩

/-- The file with a text before its own. -/
def behind (f : ScriptFile) (before : Text) : ScriptFile := ⟨f.path, before ++ '\n' :: f.text⟩

variable {f : ScriptFile} {before : Text}

theorem cleanRows_behind (f : ScriptFile) (before : Text) :
    (f.behind before).cleanRows = (f.front before).cleanRows ++ f.cleanRows := by
  rw [cleanRows, behind, Text.rows, Text.pieces_append_cons, List.filterMap_append]
  rfl

theorem rowsOf_behind (f : ScriptFile) (before : Text) :
    Library.rowsOf (f.behind before) = Library.rowsOf (f.front before) ++ Library.rowsOf f := by
  have hrows : Library.rowsOf (f.behind before) =
      (f.behind before).cleanRows.map (Row.qualify (tagOf f.path)) := rfl
  rw [hrows, cleanRows_behind, List.map_append]
  rfl

/-- A text can stand before the file without being mixed up with it. -/
structure Separable (f : ScriptFile) (before : Text) : Prop where
  /-- The file is a script file. -/
  path : isScriptPath f.path = true
  /-- It begins with a marker. -/
  first : ∃ name rest, f.cleanRows = Row.marker name :: rest
  /-- Rows that hold a sign of markers are markers. -/
  marker : ∀ row ∈ (f.behind before).cleanRows, '<' ∈ row → ∃ name, row = Row.marker name
  /-- No row of the file holds the beginning of a jump to a block. -/
  sign : ∀ row ∈ f.cleanRows, ¬ ['[', generatedSign] <:+: row
  /-- The tag of the file makes no row a jump to a block. -/
  jump : ∀ n suffix, Row.jump (generatedName n) suffix ∉ Library.rowsOf f

/-- Only a tag that begins with the name of a block and a bracket can make a row a jump to a
block. -/
theorem jump_not_mem_rowsOf (htag : ∀ n more, tagOf f.path ≠ generatedName n ++ ']' :: more)
    (hsign : ∀ row ∈ f.cleanRows, ¬ ['[', generatedSign] <:+: row) (n : Nat) (suffix : Text) :
    Row.jump (generatedName n) suffix ∉ Library.rowsOf f := by
  intro hmem
  obtain ⟨written, hwritten, hrow⟩ := List.mem_map.1 hmem
  unfold Row.qualify at hrow
  split at hrow
  next rest =>
    split at hrow
    next =>
      refine hsign _ hwritten ⟨[], Nat.toDigits 16 n ++ ']' :: suffix, ?_⟩
      rw [hrow]
      rfl
    next =>
      have heq : tagOf f.path ++ rest = generatedName n ++ ']' :: suffix := (List.cons.inj hrow).2
      rcases List.append_eq_append_iff.1 heq with ⟨more, hname, -⟩ | ⟨more, htagged, hrest⟩
      · exact tag_append_ne_generatedName f.path more n hname.symm
      · cases more with
        | nil => exact tag_append_ne_generatedName f.path [] n (by simpa using htagged)
        | cons c more =>
          obtain ⟨rfl, -⟩ := List.cons.inj hrest
          exact htag n more htagged
  next hhead => exact hhead _ hrow

/-- Where only markers hold the sign of markers, no row opens a block with one. -/
theorem not_opens_marker (h : ∀ row ∈ f.cleanRows, '<' ∈ row → ∃ name, row = Row.marker name)
    (name : Text) : ¬ f.Opens (Row.marker name) := by
  rintro ⟨k, hk⟩
  obtain ⟨m, hm⟩ := h _ (mem_cleanRows (by simp [List.replicate_succ]) hk) (by simp [Row.marker])
  simp [Row.marker, List.replicate_succ] at hm

namespace Separable

variable (h : f.Separable before)

include h

theorem unopened (name : Text) : Library.Unopened [f] (Row.marker name) := by
  intro g hg _
  obtain rfl := List.mem_singleton.1 hg
  refine not_opens_marker (fun row hrow => h.marker row ?_) name
  rw [cleanRows_behind]
  exact List.mem_append_right _ hrow

theorem unopened_behind (name : Text) :
    Library.Unopened [f.behind before] (Row.marker name) := by
  intro g hg _
  obtain rfl := List.mem_singleton.1 hg
  exact not_opens_marker h.marker name

theorem unnumbered : f.Unnumbered where
  marker n := h.unopened _ f List.mem_cons_self h.path
  jump n suffix k := by
    cases k with
    | zero => exact h.jump n suffix
    | succ k =>
      intro hk
      refine h.sign _ (mem_cleanRows (by simp [List.replicate_succ]) hk)
        ⟨List.replicate (k + 1) '{', Nat.toDigits 16 n ++ ']' :: suffix, ?_⟩
      simp [Row.jump, generatedName]

end Separable

/-! ### Visits of both -/

/-- How many blocks the text before the file closes among its own rows. -/
def shift (f : ScriptFile) (before : Text) : Nat := Visit.next ⟨(f.front before).block, 0⟩

/-- The rows of both are read as those of the file from its number on, behind what the text before
it has left. -/
theorem reading_behind (before : Text)
    (hfirst : ∃ name rest, f.cleanRows = Row.marker name :: rest) :
    Visit.reading ⟨(f.behind before).block, 0⟩ =
      (Visit.reading ⟨f.block, f.shift before⟩).onto (Visit.entries ⟨(f.front before).block, 0⟩)
        (Visit.pending ⟨(f.front before).block, 0⟩) := by
  obtain ⟨name, rest, hrows⟩ := hfirst
  have hf : Library.rowsOf f = Row.marker name :: rest.map (Row.qualify (tagOf f.path)) := by
    have hmap : Library.rowsOf f = f.cleanRows.map (Row.qualify (tagOf f.path)) := rfl
    rw [hmap, hrows]
    rfl
  rw [Visit.reading, Visit.reading, Reading.ofRows, Reading.ofRows]
  simp only [block, rowsOf_behind]
  rw [List.foldl_append, hf, List.foldl_cons, List.foldl_cons, Reading.addRow_marker,
    Reading.addRow_marker, Reading.mark_eq_onto, Reading.foldl_addRow_onto, Reading.endSegment_onto]
  rfl

/-- The visits of the file come first, and then those of the blocks that stand before it. -/
theorem visits_behind (before : Text)
    (hfirst : ∃ name rest, f.cleanRows = Row.marker name :: rest) :
    ∃ inner outer,
      f.visits (f.shift before) = ⟨f.block, f.shift before⟩ :: inner ∧
      (f.behind before).visits 0 = ⟨(f.behind before).block, 0⟩ :: (inner ++ outer) ∧
      (∀ v ∈ outer, ∃ n, v.block.origin = .block (generatedName n)) := by
  have hreading := reading_behind before hfirst
  have hpending : Visit.pending ⟨(f.behind before).block, 0⟩ =
      Visit.pending ⟨f.block, f.shift before⟩ ++ Visit.pending ⟨(f.front before).block, 0⟩ :=
    congrArg Reading.pending hreading
  have hnext : Visit.next ⟨(f.behind before).block, 0⟩ = Visit.next ⟨f.block, f.shift before⟩ := by
    rw [Visit.next, hreading]
    rfl
  let waiting := Visit.pending ⟨f.block, f.shift before⟩
  let next := Visit.next ⟨f.block, f.shift before⟩
  refine ⟨Block.visits waiting next,
    Block.visits (Visit.pending ⟨(f.front before).block, 0⟩) (Block.last waiting next), ?_, ?_, ?_⟩
  · rw [visits, Block.visits_cons, List.append_nil]
  · rw [visits, Block.visits_cons, List.append_nil, hpending, hnext, Block.visits_append]
  · intro v hv
    have hwaits : ∃ u : Visit, v.block ∈ u.pending := by
      rcases Block.mem_or_exists_pending hv with hwaits | ⟨u, -, hwaits⟩
      · exact ⟨_, hwaits⟩
      · exact ⟨u, hwaits⟩
    obtain ⟨u, hwaits⟩ := hwaits
    obtain ⟨n, -, hname, -⟩ := (u.putAside hwaits).closed
    exact ⟨n, hname⟩

/-- What the text before the file yields besides comes first, or is no macro. -/
theorem Separable.scripts_behind (h : f.Separable before) (name : Text) :
    ∃ first, (f.behind before).scripts name 0 = first ++ f.scripts name (f.shift before) := by
  obtain ⟨inner, outer, hvisits, hbehind, houter⟩ := visits_behind before h.first
  have hentries : Visit.entries ⟨(f.behind before).block, 0⟩ =
      Visit.entries ⟨(f.front before).block, 0⟩ ++ Visit.entries ⟨f.block, f.shift before⟩ := by
    rw [Visit.entries, reading_behind before h.first]
    rfl
  have hnone : (outer.flatMap Visit.entries).filterMap (Entry.script? name) = [] := by
    refine List.filterMap_eq_nil_iff.2 fun e he => ?_
    obtain ⟨v, hv, he⟩ := List.mem_flatMap.1 he
    obtain ⟨n, hname⟩ := houter v hv
    have hmem : v ∈ (f.behind before).visits 0 := by
      rw [hbehind]
      exact List.mem_cons_of_mem _ (List.mem_append_right _ hv)
    cases e with
    | named own script =>
      exact absurd (opens_of_named hmem hname he) (not_opens_marker h.marker own)
    | block own t => rfl
  refine ⟨(Visit.entries ⟨(f.front before).block, 0⟩).filterMap (Entry.script? name), ?_⟩
  rw [scripts, scripts, hbehind, hvisits, List.flatMap_cons, List.flatMap_cons, hentries,
    List.flatMap_append]
  simp [hnone]

/-- The visits of the file are alike from its number on. -/
theorem Separable.renamed_visits (h : f.Separable before) :
    List.Forall₂ (Visit.Renamed (· + f.shift before)) (f.visits 0)
      (f.visits (f.shift before)) := by
  refine h.unnumbered.renamed_visits fun i _ => ?_
  show 0 + i + f.shift before = f.shift before + i
  omega

/-- Those of its blocks are among the visits of both. -/
theorem Separable.exists_renamed (h : f.Separable before) {v : Visit} (hv : v ∈ f.visits 0)
    {n : Nat} (hname : v.block.origin = .block (generatedName n)) :
    ∃ w ∈ (f.behind before).visits 0, v.Renamed (· + f.shift before) w := by
  obtain ⟨inner, outer, hvisits, hbehind, -⟩ := visits_behind before h.first
  obtain ⟨w, hw, hrenamed⟩ := Library.exists_of_forall₂ h.renamed_visits hv
  have hwname := hrenamed.block.origin.eq_block hname
  rw [hvisits] at hw
  rcases List.mem_cons.1 hw with rfl | hw
  · -- the rows of the file itself are in no block
    cases hwname
  · refine ⟨w, ?_, hrenamed⟩
    rw [hbehind]
    exact List.mem_cons_of_mem _ (List.mem_append_left _ hw)

/-- The blocks of a file have the numbers below its size. -/
theorem exists_visit_iff (f : ScriptFile) (n : Nat) :
    (∃ v ∈ f.visits 0, v.block.origin = .block (generatedName n)) ↔ n < f.size := by
  obtain ⟨k, hlast, hperm⟩ := Block.perm_names_visits [f.block] 0
  have hsize : f.size = k := by rw [size, hlast, Nat.zero_add]
  have hnames : ∀ name, name ∈ Block.names ((f.visits 0).map (·.block)) ↔
      ∃ m < k, generatedName m = name := by
    intro name
    rw [visits, hperm.mem_iff]
    simp [Block.names, block, Origin.name?]
  rw [hsize]
  constructor
  · rintro ⟨v, hv, hname⟩
    have hmem : generatedName n ∈ Block.names ((f.visits 0).map (·.block)) :=
      List.mem_filterMap.2 ⟨v.block, List.mem_map_of_mem hv, by rw [hname]; rfl⟩
    obtain ⟨m, hm, heq⟩ := (hnames _).1 hmem
    rwa [← generatedName_inj heq]
  · intro hn
    obtain ⟨b, hb, hname⟩ := List.mem_filterMap.1 ((hnames _).2 ⟨n, hn, rfl⟩)
    obtain ⟨v, hv, rfl⟩ := List.mem_map.1 hb
    refine ⟨v, hv, ?_⟩
    cases horigin : v.block.origin with
    | file tag => simp [horigin, Origin.name?] at hname
    | block name => rw [horigin] at hname; rw [Option.some.inj hname]

end ScriptFile

/-! ### Loads of both -/

namespace Library

variable {files : List ScriptFile} {f : ScriptFile} {before : Text}

theorem visits_singleton (h : isScriptPath f.path = true) : visits [f] = f.visits 0 := by
  have hfilter : [f].filter (fun f => isScriptPath f.path) = [f] := by simp [h]
  rw [visits, hfilter]
  exact List.append_nil _

/-- The name of a block leads to its own lines, if it has any. -/
theorem track?_of_visit {n : Nat} (hmarker : Unopened files (Row.marker (generatedName n)))
    {v : Visit} (hv : v ∈ visits files) (hname : v.block.origin = .block (generatedName n)) :
    (load files).track? (generatedName n) =
      if v.ownLines = [] then none else some ⟨v.ownLines⟩ := by
  split
  next hnil =>
    refine Option.eq_none_iff_forall_ne_some.2 fun t ht => ?_
    obtain ⟨w, hw, hwname, hlines, -⟩ := (track?_eq_some_iff hmarker).1 ht
    obtain rfl : w = v := eq_of_name hw hv (by rw [hwname]; rfl) (by rw [hname]; rfl)
    exact hlines hnil
  next hlines => exact (track?_eq_some_iff hmarker).2 ⟨v, hv, hname, hlines, rfl⟩

/-- **A text before a file changes the numbers of its blocks only**, whatever braces it leaves open
and whatever defaults it declares. Every macro of the file is defined by both together, with the
same defaults and with the same lines, but that a jump to a block has its number raised, by the same
for all; and a block of the file holds the same lines under the raised number. -/
theorem renamed_behind (h : f.Separable before) : ∃ k : Nat,
    (∀ name script, (load [f]).get? name = some script →
      ∃ script', (load [f.behind before]).get? name = some script' ∧
        script.Renamed (· + k) script') ∧
    (∀ n < f.size, Option.Rel (Track.Renamed (· + k)) ((load [f]).track? (generatedName n))
      ((load [f.behind before]).track? (generatedName (n + k)))) ∧
    ∀ n, f.size ≤ n → (load [f]).track? (generatedName n) = none := by
  have hpath : isScriptPath (f.behind before).path = true := h.path
  refine ⟨f.shift before, fun name script hscript => ?_, fun n hn => ?_, fun n hn => ?_⟩
  · obtain ⟨first, hscripts⟩ := h.scripts_behind name
    have hentries : List.Forall₂ (Entry.Renamed (· + f.shift before))
        ((f.visits 0).flatMap Visit.entries)
        ((f.visits (f.shift before)).flatMap Visit.entries) :=
      List.rel_flatMap h.renamed_visits fun _ _ hv => hv.entries
    have hlast : Option.Rel (Script.Renamed (· + f.shift before)) ((load [f]).get? name)
        (f.scripts name (f.shift before)).getLast? := by
      rw [get?_load, visits_singleton h.path]
      exact getLast?_rel (List.rel_filterMap (fun _ _ he => he.script? name) hentries)
    rw [get?_load, visits_singleton hpath, ← ScriptFile.scripts, hscripts, List.getLast?_append]
    rw [hscript] at hlast
    generalize (f.scripts name (f.shift before)).getLast? = last? at hlast
    cases hlast with
    | some hrenamed => exact ⟨_, rfl, hrenamed⟩
  · obtain ⟨v, hv, hname⟩ := (f.exists_visit_iff n).2 hn
    obtain ⟨w, hw, hrenamed⟩ := h.exists_renamed hv hname
    rw [track?_of_visit (h.unopened _) (visits_singleton h.path ▸ hv) hname,
      track?_of_visit (h.unopened_behind _) (visits_singleton hpath ▸ hw)
        (hrenamed.block.origin.eq_block hname)]
    by_cases hnil : v.ownLines = []
    · have hnil' : w.ownLines = [] := by simpa [hnil] using hrenamed.ownLines
      rw [if_pos hnil, if_pos hnil']
      exact .none
    · have hnil' : w.ownLines ≠ [] := fun hw => hnil (by simpa [hw] using hrenamed.ownLines)
      rw [if_neg hnil, if_neg hnil']
      exact .some hrenamed.ownLines
  · refine Option.eq_none_iff_forall_ne_some.2 fun t ht => ?_
    obtain ⟨v, hv, hname, -, -⟩ := (track?_eq_some_iff (h.unopened _)).1 ht
    rw [visits_singleton h.path] at hv
    exact Nat.not_lt.2 hn ((f.exists_visit_iff n).1 ⟨v, hv, hname⟩)

/-- A file with a block in a block. -/
def tidy : ScriptFile :=
  ⟨"f.m".toList, "<a>\nDEFAULT>n=2\n\x7b\nB\n\x7bC\x7d*2\n\x7d*3\n[b]\n<b>\nX".toList⟩

/-- A text whose braces do not match. -/
def untidy : Text :=
  "DEFAULT>m=1\n<p>\n\x7d\x7b\n\x7bA\x7d\n\x7d\x7d\x7bZ\n\x7b \x7d\nY\n\x7b\x7b".toList

theorem separable_untidy : tidy.Separable untidy where
  path := by decide
  first := ⟨"a".toList, _, rfl⟩
  marker row hrow hsign := by
    have hrows : ∀ row ∈ (tidy.behind untidy).cleanRows, '<' ∈ row →
        (Row.marked? row).isSome = true := by decide +kernel
    obtain ⟨name, hname⟩ := Option.isSome_iff_exists.1 (hrows row hrow hsign)
    exact ⟨name, Row.marked?_eq_some_iff.1 hname⟩
  sign := by decide +kernel
  jump := by
    refine ScriptFile.jump_not_mem_rowsOf (fun n more htag => ?_) (by decide +kernel)
    exact absurd (List.cons.inj htag).1 (by decide)

theorem renamed_behind_untidy :
    tidy.Separable untidy ∧ ∃ k : Nat,
      (∀ name script, (load [tidy]).get? name = some script →
        ∃ script', (load [tidy.behind untidy]).get? name = some script' ∧
          script.Renamed (· + k) script') ∧
      (∀ n < tidy.size, Option.Rel (Track.Renamed (· + k)) ((load [tidy]).track? (generatedName n))
        ((load [tidy.behind untidy]).track? (generatedName (n + k)))) ∧
      ∀ n, tidy.size ≤ n → (load [tidy]).track? (generatedName n) = none :=
  ⟨separable_untidy, renamed_behind separable_untidy⟩

/-- A file whose tag makes a label a jump to a block. -/
def jumpy : ScriptFile := ⟨"@0].m".toList, "<a>\n[x]\n\x7b\nB\n\x7d\n".toList⟩

/-- A text with a block. -/
def blocky : Text := "<p>\n\x7b\nA\n\x7d".toList

/-- **A path that looks like a jump can mix up the blocks of both.** Both texts are sound, and no
row of them names a block; the macro has a jump to the block of the file, and with the other text
before it to the block of that text. -/
theorem not_renamed_behind :
    isScriptPath jumpy.path = true ∧
      (∃ name rest, jumpy.cleanRows = Row.marker name :: rest) ∧
      (∀ row ∈ (jumpy.behind blocky).cleanRows, '<' ∈ row → (Row.marked? row).isSome = true) ∧
      (∀ row ∈ (jumpy.behind blocky).cleanRows, ¬ ['[', generatedSign] <:+: row) ∧
      ∃ t t', (load [jumpy]).track? "@0].a".toList = some t ∧
        (load [jumpy.behind blocky]).track? "@0].a".toList = some t' ∧
        (∀ ρ, ¬ t.Renamed ρ t') ∧
        (load [jumpy]).track? (generatedName 0) = some ⟨["B".toList]⟩ ∧
        (load [jumpy.behind blocky]).track? (generatedName 0) = some ⟨["A".toList]⟩ := by
  refine ⟨by decide, ⟨"a".toList, _, rfl⟩, by decide +kernel, by decide +kernel,
    ⟨["[@0].x]".toList, "[@0]".toList]⟩, ⟨["[@0].x]".toList, "[@1]".toList]⟩, by decide +kernel,
    by decide +kernel, fun ρ hrenamed => ?_, by decide +kernel, by decide +kernel⟩
  -- the first line keeps the number of a block that the second one changes
  cases hrenamed with
  | cons hfirst hrest =>
    cases hrest with
    | cons hsecond _ =>
      have hkept : Row.jump (generatedName 0) ".x]".toList =
          Row.jump (generatedName (ρ 0)) ".x]".toList := Row.Renamed.eq_jump hfirst
      have hchanged : Row.jump (generatedName 1) [] = Row.jump (generatedName (ρ 0)) [] :=
        Row.Renamed.eq_jump hsecond
      obtain ⟨hzero, -⟩ := Row.jump_generatedName_inj hkept
      obtain ⟨hone, -⟩ := Row.jump_generatedName_inj hchanged
      omega

end Library

end PadScript
