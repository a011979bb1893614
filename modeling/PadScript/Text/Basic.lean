/-!
# Text

`Text` is a list of characters. This file holds the cuts that every reader of the library is made
of: `Text.trim`, `Text.cut?` (at the first separator), `Text.pieces` (at every separator),
`Text.piecesBy` (at every occurrence of a text) and `Text.replace`.

`Text.intercalate_pieces` says that cutting loses nothing but the separators, and
`Text.not_mem_of_mem_pieces` that no piece holds one. `Text.replace_append` and
`Text.replace_append_left` follow a replacement from the front of a text.
-/

namespace PadScript

/-- A text, as its characters. -/
abbrev Text := List Char

namespace Text

/-! ### Blanks -/

/-- The characters with the Unicode property `White_Space`. -/
def isBlank (c : Char) : Bool :=
  let n := c.toNat
  (9 ≤ n && n ≤ 13) || n == 0x20 || n == 0x85 || n == 0xA0 || n == 0x1680 ||
    (0x2000 ≤ n && n ≤ 0x200A) || n == 0x2028 || n == 0x2029 || n == 0x202F || n == 0x205F ||
    n == 0x3000

/-- The text without the blanks at either end. -/
def trim (t : Text) : Text :=
  ((t.dropWhile isBlank).reverse.dropWhile isBlank).reverse

/-! ### Letters without case -/

/-- Equality up to the case of the letters `A` to `Z`. -/
def eqIgnoreCase (s t : Text) : Bool :=
  s.map Char.toLower == t.map Char.toLower

/-! ### Cutting -/

/-- The text before and after the first `sep`, if there is one. -/
def cut? (sep : Char) : Text → Option (Text × Text)
  | [] => none
  | c :: rest =>
    if c = sep then some ([], rest)
    else (cut? sep rest).map fun (before, after) => (c :: before, after)

/-- The pieces of a text between its separators: one more than there are separators. -/
def pieces (sep : Char) : Text → List Text
  | [] => [[]]
  | c :: rest =>
    if c = sep then [] :: pieces sep rest
    else
      match pieces sep rest with
      | [] => [[c]]
      | piece :: more => (c :: piece) :: more

/-- The rest of a text that begins with `start`. -/
def after? : (start : Text) → Text → Option Text
  | [], t => some t
  | c :: start, d :: t => if c = d then after? start t else none
  | _ :: _, [] => none

/-- The part of a text that ends with `stop`, before it. -/
def before? (stop t : Text) : Option Text :=
  (after? stop.reverse t.reverse).map List.reverse

/-- The pieces of a text between the occurrences of `sep`, found from the left without overlap.
An empty `sep` occurs nowhere. -/
def piecesBy (sep t : Text) : List Text :=
  go 0 t
where
  /-- Cuts the rest of the text; the first `skip` characters belong to an occurrence of `sep`. -/
  go : Nat → Text → List Text
    | _, [] => [[]]
    | skip + 1, _ :: rest => go skip rest
    | 0, c :: rest =>
      if !sep.isEmpty && sep.isPrefixOf (c :: rest) then [] :: go (sep.length - 1) rest
      else
        match go 0 rest with
        | [] => [[c]]
        | piece :: more => (c :: piece) :: more

/-- The text with every occurrence of `old`, found from the left, written as `new`. -/
def replace (old new t : Text) : Text :=
  new.intercalate (piecesBy old t)

/-- The rows of a text; a newline ends a row. -/
def rows (t : Text) : List Text := pieces '\n' t

/-! ### What the cuts keep -/

theorem after?_eq_some_iff {start t rest : Text} :
    after? start t = some rest ↔ t = start ++ rest := by
  induction start generalizing t with
  | nil => simp [after?, eq_comm]
  | cons c start ih =>
    cases t with
    | nil => simp [after?]
    | cons d t =>
      by_cases h : c = d
      · simp [after?, h, ih]
      · simp [after?, h, Ne.symm h]

/-- What stands behind a separator is a later part of the text. -/
theorem eq_append_of_cut? {sep : Char} {t before after : Text}
    (h : cut? sep t = some (before, after)) : t = before ++ sep :: after := by
  induction t generalizing before with
  | nil => simp [cut?] at h
  | cons c rest ih =>
    simp only [cut?] at h
    split at h
    next hc => simp_all
    next =>
      simp only [Option.map_eq_some_iff, Prod.mk.injEq, Prod.exists] at h
      obtain ⟨b, a, hcut, rfl, rfl⟩ := h
      simp [ih hcut]

/-- No separator stands before the first one. -/
theorem not_mem_of_cut? {sep : Char} {t before after : Text}
    (h : cut? sep t = some (before, after)) : sep ∉ before := by
  induction t generalizing before with
  | nil => simp [cut?] at h
  | cons c rest ih =>
    simp only [cut?] at h
    split at h
    next hc => simp_all
    next hc =>
      simp only [Option.map_eq_some_iff, Prod.mk.injEq, Prod.exists] at h
      obtain ⟨b, a, hcut, rfl, rfl⟩ := h
      simp [ih hcut, Ne.symm hc]

theorem length_le_of_cut? {sep : Char} {t before after : Text}
    (h : cut? sep t = some (before, after)) : after.length ≤ t.length := by
  simp only [eq_append_of_cut? h, List.length_append, List.length_cons]
  omega

theorem pieces_ne_nil (sep : Char) (t : Text) : pieces sep t ≠ [] := by
  cases t with
  | nil => simp [pieces]
  | cons c rest =>
    simp only [pieces]
    split
    · simp
    · split <;> simp

/-- Cutting at a separator loses nothing but the separators. -/
theorem intercalate_pieces (sep : Char) (t : Text) : [sep].intercalate (pieces sep t) = t := by
  induction t with
  | nil => simp [pieces, List.intercalate]
  | cons c rest ih =>
    have hne := pieces_ne_nil sep rest
    simp only [pieces]
    split
    next hc =>
      subst hc
      cases hp : pieces c rest with
      | nil => exact absurd hp hne
      | cons piece more =>
        rw [hp] at ih
        simp only [List.intercalate, List.intersperse_cons_cons, List.flatten_cons] at ih ⊢
        simp [ih]
    next hc =>
      cases hp : pieces sep rest with
      | nil => exact absurd hp hne
      | cons piece more =>
        rw [hp] at ih
        cases more with
        | nil => simpa [List.intercalate] using ih
        | cons m ms => simpa [List.intercalate] using ih

/-- No piece holds the separator. -/
theorem not_mem_of_mem_pieces {sep : Char} {t piece : Text} (h : piece ∈ pieces sep t) :
    sep ∉ piece := by
  induction t generalizing piece with
  | nil => simp_all [pieces]
  | cons c rest ih =>
    simp only [pieces] at h
    split at h
    · rcases List.mem_cons.1 h with rfl | h
      · simp
      · exact ih h
    next hc =>
      split at h
      · simp only [List.mem_singleton] at h
        subst h
        simpa using Ne.symm hc
      next first more hp =>
        rw [hp] at ih
        rcases List.mem_cons.1 h with rfl | h
        · have := ih List.mem_cons_self
          simp [this, Ne.symm hc]
        · exact ih (List.mem_cons_of_mem _ h)

/-! ### Cutting what was put together -/

theorem before?_append (t stop : Text) : before? stop (t ++ stop) = some t := by
  have h : after? stop.reverse (t ++ stop).reverse = some t.reverse := by
    rw [after?_eq_some_iff, List.reverse_append]
  rw [before?, h, Option.map_some, List.reverse_reverse]

theorem before?_eq_some_iff {stop t front : Text} :
    before? stop t = some front ↔ t = front ++ stop := by
  constructor
  · intro h
    obtain ⟨back, hafter, rfl⟩ := Option.map_eq_some_iff.1 h
    have ht := congrArg List.reverse (after?_eq_some_iff.1 hafter)
    rwa [List.reverse_reverse, List.reverse_append, List.reverse_reverse] at ht
  · rintro rfl
    exact before?_append front stop

theorem cut?_append {sep : Char} {before : Text} (h : sep ∉ before) (after : Text) :
    cut? sep (before ++ sep :: after) = some (before, after) := by
  induction before with
  | nil => simp [cut?]
  | cons c rest ih =>
    simp only [List.mem_cons, not_or] at h
    simp [cut?, Ne.symm h.1, ih h.2]

/-- A separator that comes behind a front without it comes behind more. -/
theorem exists_of_append_eq {sep : Char} {front rest before after : Text} (h : sep ∉ front)
    (heq : front ++ rest = before ++ sep :: after) :
    ∃ more, before = front ++ more ∧ rest = more ++ sep :: after := by
  rcases List.append_eq_append_iff.1 heq with ⟨more, hbefore, hrest⟩ | ⟨more, hfront, hrest⟩
  · exact ⟨more, hbefore, hrest⟩
  · cases more with
    | nil => exact ⟨[], by simpa using hfront.symm, by simpa using hrest.symm⟩
    | cons c more =>
      obtain ⟨rfl, -⟩ := List.cons.inj hrest
      exact absurd (hfront ▸ List.mem_append_right _ List.mem_cons_self) h

theorem pieces_append {sep : Char} {piece : Text} (h : sep ∉ piece) (rest : Text) :
    pieces sep (piece ++ sep :: rest) = piece :: pieces sep rest := by
  induction piece with
  | nil => simp [pieces]
  | cons c piece ih =>
    simp only [List.mem_cons, not_or] at h
    simp [pieces, Ne.symm h.1, ih h.2]

/-- A text without the separator is one piece. -/
theorem pieces_eq_singleton {sep : Char} {t : Text} (h : sep ∉ t) : pieces sep t = [t] := by
  induction t with
  | nil => rfl
  | cons c rest ih =>
    simp only [List.mem_cons, not_or] at h
    simp [pieces, Ne.symm h.1, ih h.2]

/-- A separator cuts a text in two. -/
theorem pieces_append_cons (sep : Char) (t rest : Text) :
    pieces sep (t ++ sep :: rest) = pieces sep t ++ pieces sep rest := by
  induction t with
  | nil => simp [pieces]
  | cons c t ih =>
    rw [List.cons_append, pieces, pieces, ih]
    split
    · rfl
    · cases hpieces : pieces sep t with
      | nil => exact absurd hpieces (pieces_ne_nil sep t)
      | cons piece more => rfl

/-- Pieces with a separator between every two are cut apart again. -/
theorem pieces_intercalate {sep : Char} {texts : List Text} (hne : texts ≠ [])
    (h : ∀ t ∈ texts, sep ∉ t) : pieces sep ([sep].intercalate texts) = texts := by
  induction texts with
  | nil => exact absurd rfl hne
  | cons t rest ih =>
    have ht := h t List.mem_cons_self
    cases rest with
    | nil => simpa [List.intercalate] using pieces_eq_singleton ht
    | cons u rest =>
      have hrest := ih (List.cons_ne_nil u rest) fun s hs => h s (List.mem_cons_of_mem _ hs)
      have hjoin : [sep].intercalate (t :: u :: rest) =
          t ++ sep :: [sep].intercalate (u :: rest) := by simp [List.intercalate]
      rw [hjoin, pieces_append ht, hrest]

/-- Pieces that are each ended by a separator are cut apart again, with an empty piece at last. -/
theorem pieces_flatMap {sep : Char} {texts : List Text} (h : ∀ t ∈ texts, sep ∉ t) :
    pieces sep (texts.flatMap (· ++ [sep])) = texts ++ [[]] := by
  induction texts with
  | nil => rfl
  | cons t rest ih =>
    have ht := h t List.mem_cons_self
    have hrest := ih fun s hs => h s (List.mem_cons_of_mem _ hs)
    simp [pieces_append ht, hrest]

/-- A text with no blank at either end is trimmed already. -/
theorem trim_eq_self {t : Text} (hhead : ∀ c, t.head? = some c → isBlank c = false)
    (hlast : ∀ c, t.getLast? = some c → isBlank c = false) : trim t = t := by
  have hdrop : ∀ s : Text, (∀ c, s.head? = some c → isBlank c = false) →
      s.dropWhile isBlank = s := by
    intro s hs
    cases s with
    | nil => rfl
    | cons c rest => simp [hs c rfl]
  rw [trim, hdrop t hhead, hdrop t.reverse (by simpa using hlast), List.reverse_reverse]

/-! ### Texts written for others -/

theorem piecesBy_go_drop (sep : Text) (skip : Nat) (t : Text) :
    piecesBy.go sep skip t = piecesBy.go sep 0 (t.drop skip) := by
  induction t generalizing skip with
  | nil => simp [piecesBy.go]
  | cons c t ih =>
    cases skip with
    | zero => rfl
    | succ skip => rw [piecesBy.go, ih skip, List.drop_succ_cons]

theorem piecesBy_ne_nil (sep t : Text) : piecesBy sep t ≠ [] := by
  suffices h : ∀ skip, piecesBy.go sep skip t ≠ [] from h 0
  induction t with
  | nil => simp [piecesBy.go]
  | cons c t ih =>
    intro skip
    cases skip with
    | zero =>
      rw [piecesBy.go]
      split
      · simp
      · split <;> simp
    | succ skip => exact ih skip

/-- An occurrence in front is cut off. -/
theorem piecesBy_append {sep : Text} (hne : sep ≠ []) (t : Text) :
    piecesBy sep (sep ++ t) = [] :: piecesBy sep t := by
  cases sep with
  | nil => exact absurd rfl hne
  | cons c sep =>
    have hprefix : (c :: sep).isPrefixOf (c :: (sep ++ t)) = true :=
      List.isPrefixOf_iff_prefix.2 (List.prefix_append (c :: sep) t)
    rw [piecesBy, List.cons_append, piecesBy.go, hprefix, piecesBy_go_drop]
    simp [piecesBy]

/-- A character that no occurrence begins with belongs to the first piece. -/
theorem exists_piecesBy_cons {sep : Text} {c : Char} {t : Text} (h : ¬sep <+: c :: t) :
    ∃ piece more, piecesBy sep t = piece :: more ∧ piecesBy sep (c :: t) = (c :: piece) :: more := by
  have hprefix : sep.isPrefixOf (c :: t) = false := by
    rwa [← Bool.not_eq_true, List.isPrefixOf_iff_prefix]
  obtain ⟨piece, more, hpieces⟩ := List.exists_cons_of_ne_nil (piecesBy_ne_nil sep t)
  refine ⟨piece, more, hpieces, ?_⟩
  rw [piecesBy] at hpieces ⊢
  rw [piecesBy.go, hprefix, hpieces, Bool.and_false]
  rfl

/-- An occurrence in front is written as the new text. -/
theorem replace_append {old : Text} (hne : old ≠ []) (new t : Text) :
    replace old new (old ++ t) = new ++ replace old new t := by
  obtain ⟨piece, more, hpieces⟩ := List.exists_cons_of_ne_nil (piecesBy_ne_nil old t)
  rw [replace, piecesBy_append hne, replace, hpieces]
  simp [List.intercalate]

/-- A character that no occurrence begins with stays. -/
theorem replace_cons {old : Text} {c : Char} {t : Text} (h : ¬old <+: c :: t) (new : Text) :
    replace old new (c :: t) = c :: replace old new t := by
  obtain ⟨piece, more, hpieces, hcons⟩ := exists_piecesBy_cons h
  rw [replace, replace, hpieces, hcons]
  cases more <;> simp [List.intercalate]

/-- Where no occurrence begins, the text stays. -/
theorem replace_append_left {old s : Text} (new t : Text)
    (h : ∀ u, u <:+ s → u ≠ [] → ¬old <+: u ++ t) :
    replace old new (s ++ t) = s ++ replace old new t := by
  induction s with
  | nil => rfl
  | cons c s ih =>
    have hhead := h (c :: s) (List.suffix_refl _) (List.cons_ne_nil c s)
    have hrest := ih fun u hu => h u (hu.trans (List.suffix_cons c s))
    rw [List.cons_append] at hhead ⊢
    rw [replace_cons hhead, hrest, List.cons_append]

end Text

end PadScript
