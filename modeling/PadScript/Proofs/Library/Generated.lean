import PadScript.Proofs.Library.Contents

/-!
# Blocks under their own names

A block between braces becomes a jump to a generated name, and is read later. A marker inside a
block is a name as it stands, though, so that a row such as `<@1>` behind an opening brace takes the
name of another block. This file shows that nothing else gets in the way of a block.

* `Library.track?_generatedName` : **unless a row opens a block with the marker of its name, a
  block is found under that name**, and what is found there is a block.
* `Library.track?_generatedName_taken` : such a row takes the name.
-/

namespace PadScript

/-- The lines of a block itself, up to its first marker. -/
def Visit.ownLines (v : Visit) : List Text :=
  Reading.firstLines v.block.origin v.start v.block.rows

/-- The lines of a block are yielded under its name. -/
theorem Visit.ownLines_mem_entries {v : Visit} {n : Nat}
    (hname : v.block.origin = .block (generatedName n)) (h : v.ownLines ≠ []) :
    .block (generatedName n) ⟨v.ownLines⟩ ∈ v.entries := by
  have hstart : v.start.name? = some (generatedName n) := by rw [Visit.start, hname]; rfl
  obtain ⟨defaults, hmem⟩ := Reading.first_mem_entries v.block.rows hstart h
  have hentry : v.block.origin.entry (generatedName n) ⟨⟨v.ownLines⟩, defaults⟩ =
      .block (generatedName n) ⟨v.ownLines⟩ := by rw [hname]; rfl
  exact hentry ▸ hmem

namespace Library

variable {files : List ScriptFile}

theorem exists_visit_pending {w : Visit} (hw : w ∈ visits files) {name : Text}
    (hname : w.block.origin = .block name) : ∃ v ∈ visits files, w.block ∈ v.pending := by
  rcases eq_block_or_exists_pending hw with ⟨f, -, -, hblock⟩ | hpending
  · simp [hblock, ScriptFile.block] at hname
  · exact hpending

/-- A marker that is read in a block, with more rows behind it, stands in a file behind opening
braces. -/
theorem exists_opens {v : Visit} (hv : v ∈ visits files) {name m : Text}
    (hname : v.block.origin = .block name) (hm : Row.marker m ∈ v.block.rows.dropLast) :
    ∃ f ∈ files, isScriptPath f.path = true ∧ f.Opens (Row.marker m) := by
  obtain ⟨f, hf, hpath, counter, hvisit, -⟩ := exists_file hv
  exact ⟨f, hf, hpath, (stems_of_mem_visits hvisit).marked name hname m hm⟩

/-- What is yielded under a generated name are the lines of the block of that name, unless a row
opens a block with the marker of the name. -/
theorem eq_ownLines {n : Nat} (h : Unopened files (Row.marker (generatedName n))) {v : Visit}
    (hv : v ∈ visits files) {e : Entry} (he : e ∈ v.entries) (hname : e.name = generatedName n) :
    v.block.origin = .block (generatedName n) ∧ e.track = ⟨v.ownLines⟩ := by
  have hstart := (v.isSegment he).start
  rw [hname] at hstart
  rcases eq_block_or_exists_name hv with ⟨f, -, -, hblock⟩ | ⟨k, horigin⟩
  · -- a segment of a file has the tag of the file in its name
    rcases hstart with ⟨hown, -⟩ | ⟨m, -, heq⟩
    · simp [Visit.start, hblock, ScriptFile.block, Origin.name?] at hown
    · rw [hblock] at heq
      exact absurd heq.symm (tag_append_ne_generatedName f.path m n)
  · rcases hstart with ⟨hown, hlines⟩ | ⟨m, hm, heq⟩
    · rw [Visit.start, horigin] at hown
      rw [horigin, Option.some.inj hown]
      exact ⟨rfl, congrArg Track.mk hlines⟩
    · rw [horigin] at heq
      obtain ⟨f, hf, hpath, hopens⟩ := exists_opens hv horigin hm
      exact absurd (heq ▸ hopens) (h f hf hpath)

/-- **Every block is found under its own name.** Take the name of a number that no script file opens
a block with the marker of. Where a row closes a block under that number, the block is visited, and
if it has lines of its own, then its name leads to exactly these. Whatever the name leads to are the
own lines of a block that was closed under that number. -/
theorem track?_generatedName {n : Nat} (h : Unopened files (Row.marker (generatedName n))) :
    (∀ v ∈ visits files, ∀ inner suffix, v.Closes v.block.rows n inner suffix →
      ∃ w ∈ visits files, w.block = ⟨.block (generatedName n), inner⟩ ∧
        (w.ownLines ≠ [] → (load files).track? (generatedName n) = some ⟨w.ownLines⟩)) ∧
    ∀ t, (load files).track? (generatedName n) = some t →
      ∃ v ∈ visits files, ∃ inner suffix, v.Closes v.block.rows n inner suffix ∧
        ∃ w ∈ visits files, w.block = ⟨.block (generatedName n), inner⟩ ∧ t = ⟨w.ownLines⟩ := by
  constructor
  · intro v hv inner suffix hcloses
    obtain ⟨w, hw, hblock⟩ := exists_visit_of_pending hv (Visit.mem_pending_of_closes hcloses)
    refine ⟨w, hw, hblock, fun hlines => ?_⟩
    have hname : w.block.origin = .block (generatedName n) := by rw [hblock]
    have hsome := isSome_track? hw (Visit.ownLines_mem_entries hname hlines)
    obtain ⟨t, ht⟩ := Option.isSome_iff_exists.1 hsome
    -- what is found is the entry of a block of that name, and there is only one
    obtain ⟨u, hu, e, he, hlabel, rfl⟩ := exists_entry ht
    obtain ⟨huname, htrack⟩ := eq_ownLines h hu he hlabel
    obtain rfl : u = w := eq_of_name hu hw (by rw [huname]; rfl) (by rw [hname]; rfl)
    exact htrack ▸ ht
  · intro t ht
    obtain ⟨w, hw, e, he, hlabel, rfl⟩ := exists_entry ht
    obtain ⟨hname, htrack⟩ := eq_ownLines h hw he hlabel
    obtain ⟨v, hv, hpending⟩ := exists_visit_pending hw hname
    obtain ⟨k, suffix, hk, hcloses⟩ := (v.putAside hpending).closed
    obtain rfl : k = n := generatedName_inj (Origin.block.inj (hk.symm.trans hname))
    exact ⟨v, hv, w.block.rows, suffix, hcloses, w, hw, by rw [← hname], htrack⟩

/-- A file with a block in a block, and a marker behind a brace. -/
def nested : ScriptFile :=
  ⟨"f.m".toList, "<a>\n\x7b\n\x7bX\x7d*2\nY\n\x7d\n\x7b<@7>\nZ\n\x7d\n".toList⟩

theorem track?_generatedName_nested :
    Unopened [nested] (Row.marker (generatedName 0)) ∧
      ∃ v ∈ visits [nested], ∃ inner suffix, v.Closes v.block.rows 0 inner suffix ∧
        ∃ w ∈ visits [nested], w.block = ⟨.block (generatedName 0), inner⟩ ∧
          w.ownLines = ["[@2]*2".toList, "Y".toList] ∧
          (load [nested]).track? (generatedName 0) = some ⟨w.ownLines⟩ := by
  have hunopened : Unopened [nested] (Row.marker (generatedName 0)) := by decide +kernel
  obtain ⟨hblocks, honly⟩ := track?_generatedName hunopened
  have hfound : (load [nested]).track? (generatedName 0) =
      some ⟨["[@2]*2".toList, "Y".toList]⟩ := by decide +kernel
  obtain ⟨v, hv, inner, suffix, hcloses, w, hw, hblock, htrack⟩ := honly _ hfound
  have hlines : w.ownLines = ["[@2]*2".toList, "Y".toList] := (Track.mk.inj htrack).symm
  obtain ⟨u, hu, hsame, hleads⟩ := hblocks v hv inner suffix hcloses
  have hname : ∀ {x : Visit}, x.block = ⟨.block (generatedName 0), inner⟩ →
      x.block.origin.name? = some (generatedName 0) := fun h => by rw [h]; rfl
  obtain rfl : u = w := eq_of_name hu hw (hname hsame) (hname hblock)
  exact ⟨hunopened, v, hv, inner, suffix, hcloses, u, hu, hblock, hlines, hleads (by simp [hlines])⟩

/-- A file with two blocks, the first of which takes the name of the second. -/
def usurper : ScriptFile := ⟨"f.m".toList, "<a>\n\x7b<@1>\nX\n\x7d\n\x7b\nY\n\x7d\n".toList⟩

/-- **A block can be lost to a marker behind a brace**: its name leads to lines of the marker. -/
theorem track?_generatedName_taken :
    ∃ v ∈ visits [usurper], v.Closes v.block.rows 1 ["Y".toList] [] ∧
      ∃ w ∈ visits [usurper], w.block = ⟨.block (generatedName 1), ["Y".toList]⟩ ∧
        w.ownLines = ["Y".toList] ∧
        (load [usurper]).track? (generatedName 1) = some ⟨["X".toList]⟩ := by
  have hv : ⟨usurper.block, 0⟩ ∈ visits [usurper] := by
    change _ ∈ visitsFrom [usurper] 0
    rw [visitsFrom, ScriptFile.visits, Block.visits_cons]
    exact List.mem_cons_self
  -- the last row closes the second block
  have hcloses : Visit.Closes ⟨usurper.block, 0⟩ usurper.block.rows 1 ["Y".toList] [] :=
    ⟨usurper.block.rows.take 6, "\x7d".toList, _, by decide +kernel, Visit.Reads.start.foldl _, rfl,
      by decide, rfl⟩
  obtain ⟨w, hw, hblock⟩ := exists_visit_of_pending hv (Visit.mem_pending_of_closes hcloses)
  have hlines : w.ownLines = ["Y".toList] := by
    obtain ⟨block, counter⟩ := w
    obtain rfl : block = _ := hblock
    rfl
  exact ⟨_, hv, hcloses, w, hw, hblock, hlines, by decide +kernel⟩

end Library

end PadScript
