import Mathlib.Data.List.Perm.Subperm
import PadScript.Proofs.Cursor.Rewind

/-!
# The stack of a run

`Nested` says level by level which positions can come about. This file says it of the stack as a
whole, without the run that led there: which tracks are open, where each frame returns to, and what
the counters are.

* `Library.ground?` : the track that is played while some frames are open.
* `Position.Stacked` : the frames have entered different tracks of the library, each with lines; each
  returns into the track that the frame below has entered; no counter is zero; and nothing is left
  open at the finished position.
* `Position.Stacked.length_frames_le` : **no more frames are open than there are tracks in the
  library.**
* `Cursor.stacked_after` : **whatever is called on a new cursor, both its position and the position
  that the next cycle starts from are stacked.**

Being stacked does not last by itself: a frame that returned into an empty root which is still to be
played three times would lead to the finished position with two of them left. `Nested` lasts, because
there the root is played once.
-/

namespace PadScript

/-- The position is one of the track with this head; it may be the finished one. -/
def Place.LiesIn (p head : Place) : Prop :=
  p.owner = head.owner ∧ p.track = head.track ∧ p.index ≤ head.track.length

namespace Library

/-- The head of the track that is played while these frames are open: that of the track which the
innermost has entered, and the root if there is none. -/
def ground? (library : Library) (root : Place) : List Frame → Option Place
  | [] => some root
  | f :: _ => (library.track? f.entered).map (Track.headOf (.stored f.entered))

/-- The number of tracks in the library. -/
def trackCount (library : Library) : Nat := library.named.size + library.blocks.size

theorem length_labels (library : Library) : library.labels.length = library.trackCount := by
  rw [labels, List.length_append, Std.TreeMap.length_keys, Std.TreeMap.length_keys, trackCount]

/-- Different labels that lead to tracks are no more than there are tracks. -/
theorem length_le_trackCount {library : Library} {labels : List Text} (hnodup : labels.Nodup)
    (hlabels : ∀ label ∈ labels, ∃ t, library.track? label = some t) :
    labels.length ≤ library.trackCount := by
  have hsub : labels ⊆ library.labels := by
    intro label hlabel
    obtain ⟨t, ht⟩ := hlabels label hlabel
    exact mem_labels_of_track? ht
  calc labels.length ≤ library.labels.length := (hnodup.subperm hsub).length_le
    _ = library.trackCount := library.length_labels

end Library

namespace Position

/-- The stack of a position is in order. A label leads to one track, so that different labels are
those of different tracks. -/
structure Stacked (library : Library) (root : Place) (p : Position) : Prop where
  /-- Every frame has entered a track of the library, and one with lines. -/
  stored : ∀ f ∈ p.frames, ∃ t, library.track? f.entered = some t ∧ t.isEmpty = false
  /-- No two have entered the same. -/
  distinct : (p.frames.map (·.entered)).Nodup
  /-- Every frame returns into the track that the frame below has entered, the lowest one into the
  root. -/
  returns : ∀ f below, f :: below <:+ p.frames →
    ∃ head, library.ground? root below = some head ∧ f.returnTo.LiesIn head
  /-- The run is in the track that the innermost frame has entered. -/
  current : ∃ head, library.ground? root p.frames = some head ∧ p.current.LiesIn head
  /-- The current track is still to be played, and so is every track that was left. -/
  counters : 1 ≤ p.loopRemaining ∧ ∀ f ∈ p.frames, 1 ≤ f.loopRemaining
  /-- Nothing is left open at the finished position. -/
  settled : p.current.isFinished = true → p.frames = [] ∧ p.loopRemaining = 1

/-- **No more frames are open than there are tracks in the library.** -/
theorem Stacked.length_frames_le {library : Library} {root : Place} {p : Position}
    (h : p.Stacked library root) : p.frames.length ≤ library.trackCount := by
  have hlabels : ∀ label ∈ p.frames.map (·.entered), ∃ t, library.track? label = some t := by
    intro label hlabel
    obtain ⟨f, hf, rfl⟩ := List.mem_map.1 hlabel
    obtain ⟨t, ht, -⟩ := h.stored f hf
    exact ⟨t, ht⟩
  have hle := Library.length_le_trackCount h.distinct hlabels
  rwa [List.length_map] at hle

end Position

/-! ### What levels come to -/

namespace Nested

variable {library : Library} {root current : Place} {n : Nat} {f : Frame} {frames below : List Frame}

theorem liesIn (h : Nested library root current n frames) :
    ∃ head, library.ground? root frames = some head ∧ current.LiesIn head := by
  cases h with
  | root howner htrack hi => exact ⟨root, rfl, howner, htrack, htrack ▸ hi⟩
  | entered ht howner _ hi _ _ _ =>
    exact ⟨current.track.headOf (.stored _), by rw [Library.ground?, ht]; rfl, howner, rfl, hi⟩

theorem counter_pos (h : Nested library root current n frames) : 1 ≤ n := by
  cases h with
  | root => exact Nat.le_refl 1
  | entered _ _ _ _ hn _ _ => exact hn

/-- What lies below a frame are levels again. -/
theorem of_suffix (h : Nested library root current n frames) (hsuffix : f :: below <:+ frames) :
    Nested library root f.returnTo f.loopRemaining below := by
  induction h with
  | root => exact absurd (List.suffix_nil.1 hsuffix) (List.cons_ne_nil _ _)
  | entered _ _ _ _ _ _ hbelow ih =>
    -- the frame is the innermost one, or it lies below that
    rcases List.suffix_cons_iff.1 hsuffix with heq | hsuffix
    · obtain ⟨rfl, rfl⟩ := List.cons.inj heq
      exact hbelow
    · exact ih hsuffix

theorem frame_counter_pos (h : Nested library root current n frames) (hf : f ∈ frames) :
    1 ≤ f.loopRemaining := by
  obtain ⟨above, below, rfl⟩ := List.append_of_mem hf
  exact (h.of_suffix (List.suffix_append ..)).counter_pos

theorem stored (h : Nested library root current n frames) :
    ∀ f ∈ frames, ∃ t, library.track? f.entered = some t ∧ t.isEmpty = false := by
  induction h with
  | root => simp
  | entered ht _ hne _ _ _ _ ih => exact List.forall_mem_cons.2 ⟨⟨_, ht, hne⟩, ih⟩

theorem distinct (h : Nested library root current n frames) :
    (frames.map (·.entered)).Nodup := by
  induction h with
  | root => exact List.nodup_nil
  | entered _ _ _ _ _ hfresh _ ih => exact List.nodup_cons.2 ⟨hfresh, ih⟩

end Nested

theorem Position.Sound.stacked {library : Library} {root : Place} {p : Position}
    (h : p.Sound library root) : p.Stacked library root where
  stored := h.levels.stored
  distinct := h.levels.distinct
  returns _ _ hsuffix := (h.levels.of_suffix hsuffix).liesIn
  current := h.levels.liesIn
  counters := ⟨h.levels.counter_pos, fun _ hf => h.levels.frame_counter_pos hf⟩
  settled := h.settled

namespace Cursor

/-- **Whatever is called on a new cursor, its stack stays in order**, in its position and in the
position that the next cycle starts from, and no more frames are open than there are tracks in the
library. -/
theorem stacked_after (library : Library) (owner : Owner) (t : Track) (params : Params)
    (calls : List Call) :
    let c := (ofTrack library owner t params).after calls
    let root := t.headOf owner
    c.position.Stacked library root ∧ c.body.Stacked library root ∧
      c.depth ≤ library.trackCount := by
  intro c root
  have hc : c.Traced library root := (traced_ofTrack ..).after calls
  have hposition : c.position.Sound library root := hc.library ▸ hc.head ▸ hc.sound.position
  have hbody : c.body.Sound library root := hc.library ▸ hc.head ▸ hc.sound.body
  exact ⟨hposition.stacked, hbody.stacked, hposition.stacked.length_frames_le⟩

/-- Behind a row `body:` that ends its track the next cycle starts at the head of that track, with
the frame of the jump still open. -/
example :
    let library := Library.load [⟨"f.m".toList, "<a>\n[s]*2\nB\n<s>\nA\nbody:\n".toList⟩]
    let song : Track := ⟨["[f.s]*2".toList, ['B']]⟩
    let refrain : Track := ⟨[['A'], "body:".toList]⟩
    ((ofTrack library .root song ⟨∅⟩).after [.nextLine, .nextLine]).body =
      ⟨refrain.headOf (.stored "f.s".toList), 1, [⟨⟨.root, song, 1⟩, 1, "f.s".toList⟩]⟩ := by
  decide +kernel

end Cursor

end PadScript
