import PadScript.Pad.ActionLine

/-!
# Action lines with blanks at their ends

A line is trimmed when it is set as the live line. That changes nothing in what it holds, since
blanks at the ends of a line are blanks at the end of a piece, and a piece is trimmed before it is
read.

* `Text.trim_append` : blanks at the ends do not count in a trimmed text.
* `Text.exists_pieces_append` : what is added at an end is added to the piece there.
* `PadState.ofLine_trim` : **a trimmed line holds what the line holds.**
-/

namespace PadScript

namespace Text

/-- The text is nothing but blanks. -/
def IsBlanks (t : Text) : Prop := ∀ c ∈ t, isBlank c = true

theorem IsBlanks.not_mem {t : Text} (h : t.IsBlanks) {sep : Char} (hsep : isBlank sep = false) :
    sep ∉ t := fun hmem => by simp [h sep hmem] at hsep

/-- Blanks at the ends do not count in a trimmed text. -/
theorem trim_append {lead trail : Text} (hlead : lead.IsBlanks) (htrail : trail.IsBlanks)
    (t : Text) : trim (lead ++ t ++ trail) = trim t := by
  have hreverse : ∀ c ∈ trail.reverse, isBlank c = true := fun c hc =>
    htrail c (List.mem_reverse.1 hc)
  rw [trim, trim, List.append_assoc, List.dropWhile_append_of_pos hlead, List.dropWhile_append]
  split
  next hempty =>
    -- nothing but blanks is left
    have hnothing : (trail ++ []).dropWhile isBlank = ([] : Text).dropWhile isBlank :=
      List.dropWhile_append_of_pos htrail
    rw [List.append_nil, List.dropWhile_nil] at hnothing
    rw [List.isEmpty_iff.1 hempty, hnothing]
  next => rw [List.reverse_append, List.dropWhile_append_of_pos hreverse]

/-- A text is its trimmed text with blanks around it. -/
theorem exists_eq_append_trim (t : Text) :
    ∃ lead trail, lead.IsBlanks ∧ trail.IsBlanks ∧ t = lead ++ trim t ++ trail := by
  have hblanks : ∀ s : Text, IsBlanks (s.takeWhile isBlank) := fun s =>
    List.all_eq_true.1 List.all_takeWhile
  refine ⟨t.takeWhile isBlank, ((t.dropWhile isBlank).reverse.takeWhile isBlank).reverse,
    hblanks t, fun c hc => hblanks _ c (List.mem_reverse.1 hc), ?_⟩
  rw [trim, List.append_assoc, ← List.reverse_append, List.takeWhile_append_dropWhile,
    List.reverse_reverse, List.takeWhile_append_dropWhile]

/-- Nothing is left of a text when it is trimmed if and only if it is nothing but blanks. -/
theorem trim_eq_nil_iff {t : Text} : trim t = [] ↔ t.IsBlanks := by
  constructor
  · intro h
    obtain ⟨lead, trail, hlead, htrail, ht⟩ := exists_eq_append_trim t
    rw [h, List.append_nil] at ht
    exact ht ▸ List.forall_mem_append.2 ⟨hlead, htrail⟩
  · intro h
    have hnil : IsBlanks [] := List.forall_mem_nil _
    have htrim := trim_append h hnil []
    rwa [List.append_nil, List.append_nil] at htrim

/-- What is added before a text is added to its first piece. -/
theorem exists_append_pieces {sep : Char} {lead : Text} (h : sep ∉ lead) (t : Text) :
    ∃ piece more, pieces sep t = piece :: more ∧
      pieces sep (lead ++ t) = (lead ++ piece) :: more := by
  induction lead with
  | nil =>
    cases hpieces : pieces sep t with
    | nil => exact absurd hpieces (pieces_ne_nil sep t)
    | cons piece more => exact ⟨piece, more, rfl, hpieces⟩
  | cons c lead ih =>
    simp only [List.mem_cons, not_or] at h
    obtain ⟨piece, more, ht, hlead⟩ := ih h.2
    exact ⟨piece, more, ht, by simp [pieces, Ne.symm h.1, hlead]⟩

/-- What is added behind a text is added to its last piece. -/
theorem exists_pieces_append {sep : Char} {trail : Text} (h : sep ∉ trail) (t : Text) :
    ∃ front piece, pieces sep t = front ++ [piece] ∧
      pieces sep (t ++ trail) = front ++ [piece ++ trail] := by
  induction t with
  | nil =>
    obtain ⟨piece, more, hnil, htrail⟩ := exists_append_pieces h []
    obtain ⟨rfl, rfl⟩ := List.cons.inj hnil
    exact ⟨[], [], rfl, by simpa using htrail⟩
  | cons c t ih =>
    obtain ⟨front, piece, ht, htrail⟩ := ih
    by_cases hc : c = sep
    · exact ⟨[] :: front, piece, by simp [pieces, hc, ht], by simp [pieces, hc, htrail]⟩
    · cases front with
      | nil =>
        refine ⟨[], c :: piece, ?_, ?_⟩
        · simp [pieces, hc, ht]
        · simp [pieces, hc, htrail]
      | cons first front =>
        refine ⟨(c :: first) :: front, piece, ?_, ?_⟩
        · simp [pieces, hc, ht]
        · simp [pieces, hc, htrail]

end Text

/-- Blanks at the ends of a piece do not count. -/
theorem PadToken.parse?_append {lead trail : Text} (hlead : lead.IsBlanks)
    (htrail : trail.IsBlanks) (piece : Text) : parse? (lead ++ piece ++ trail) = parse? piece := by
  rw [parse?, parse?, Text.trim_append hlead htrail]

/-- Blanks at the ends of a line do not count. -/
theorem PadState.ofLine_append {lead trail : Text} (hlead : lead.IsBlanks)
    (htrail : trail.IsBlanks) (line : Text) : ofLine (lead ++ line ++ trail) = ofLine line := by
  have hbar : Text.isBlank '|' = false := by decide
  have hnil : Text.IsBlanks [] := nofun
  obtain ⟨front, last, hline, htrail'⟩ := Text.exists_pieces_append (htrail.not_mem hbar) line
  obtain ⟨piece, more, hpieces, hlead'⟩ :=
    Text.exists_append_pieces (hlead.not_mem hbar) (line ++ trail)
  have hlast := PadToken.parse?_append hnil htrail last
  have hfirst := PadToken.parse?_append hlead hnil piece
  rw [List.nil_append] at hlast
  rw [List.append_nil] at hfirst
  rw [ofLine, ofLine, List.append_assoc, hlead', List.map_cons, hfirst, ← List.map_cons, ← hpieces,
    htrail', hline, List.map_append, List.map_append, List.map_singleton, List.map_singleton, hlast]

/-- **A trimmed line holds what the line holds.** -/
theorem PadState.ofLine_trim (line : Text) : ofLine (Text.trim line) = ofLine line := by
  obtain ⟨lead, trail, hlead, htrail, hline⟩ := Text.exists_eq_append_trim line
  conv => rhs; rw [hline]
  rw [PadState.ofLine_append hlead htrail]

end PadScript
