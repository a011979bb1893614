import PadScript.Proofs.Token.Spelling

/-!
# Tokens with blanks between them

Rows hold no blanks, so the tokens of an expression are kept apart by `|space|`, or stand side by
side. `Written gap ls t` says that the text `t` is made of the spellings `ls`, with the gap between
each two that are next to each other or, where that makes no other tokens of them, joined.

A text that is written with `|space|` is one that is written with blanks, behind `decodeSpaces`; and
a text that is written with blanks is read as its tokens. The bars are what needs care. Next to the
sign `||`, the gap is not at the first bar, and a text between quotes may hold bars as well. And the
name `space` makes a gap with the bars around it: `||space|space|x` has its gap after the first
bar, where it was not put. So next to this name no gap may be left out.

* `Lexeme.Written.reads` : a text that is written with blanks is read as its tokens.
* `Lexeme.Written.decode` : `decodeSpaces` makes blanks of the gaps, and changes nothing else.
* `Lexeme.scan_written` : **reading undoes writing.**
-/

namespace PadScript

namespace Lexeme

/-- Joined, the two would begin with another sign. -/
def Merges (l m : Lexeme) : Prop := l.text ∈ openSigns ∧ m.text.head? = some '='

/-- The spellings make up a text, with the gap between each two unless they are joined. -/
inductive Written (gap : Text) : List Lexeme → Text → Prop
  /-- There is no spelling. -/
  | nil : Written gap [] []
  /-- There is one spelling. -/
  | last (l : Lexeme) : Written gap [l] l.text
  /-- The gap stands behind the first spelling. -/
  | spaced {l m : Lexeme} {ls : List Lexeme} {t : Text} (h : Written gap (m :: ls) t) :
      Written gap (l :: m :: ls) (l.text ++ (gap ++ t))
  /-- The first spelling is joined to the next. -/
  | joined {l m : Lexeme} {ls : List Lexeme} {t : Text} (hword : ¬(l.IsWordLike ∧ m.IsWordLike))
      (hmerge : ¬l.Merges m) (h : Written gap (m :: ls) t) :
      Written gap (l :: m :: ls) (l.text ++ t)

/-! ### Where a spelling stops -/

/-- What is not like a word does not begin like one. -/
theorem head_of_not_isWordLike {l : Lexeme} (h : ¬l.IsWordLike) {c : Char}
    (hc : c ∈ l.text.head?) : Token.isWordChar c = false ∧ Token.isNumberChar c = false := by
  simp only [IsWordLike, not_or, not_exists] at h
  obtain ⟨hident, hkeyword, hbool, hnumber⟩ := h
  obtain ⟨w, t, hspells⟩ := l
  cases hspells with
  | sign hsign =>
    have hall : ∀ row ∈ Token.signs,
        row.1.head?.all (fun c => !Token.isWordChar c && !Token.isNumberChar c) = true := by decide
    have hhead := hall _ hsign
    rw [Option.mem_def.1 hc] at hhead
    simpa using hhead
  | keyword hword => exact absurd hword hkeyword
  | truth b => exact absurd rfl (hbool b)
  | name => exact absurd rfl (hident w)
  | whole => exact absurd rfl (hnumber _)
  | point => exact absurd rfl (hnumber _)
  | quoted hquote =>
    cases hc
    exact ⟨Statements.isWordChar_eq_false (.inl hquote),
      Statements.isNumberChar_eq_false (.inl hquote)⟩

/-- The gap begins like no word, no number and no `=`. -/
def IsGap (gap : Text) : Prop := ∃ c more, gap = c :: more ∧ Token.isWordChar c = false ∧
  Token.isNumberChar c = false ∧ c ≠ '='

theorem isGap_blank : IsGap [' '] := ⟨' ', [], rfl, by decide, by decide, by decide⟩

theorem isGap_spaceWord : IsGap spaceWord :=
  ⟨'|', "space|".toList, rfl, by decide, by decide, by decide⟩

theorem stopsAt_gap (l : Lexeme) {gap : Text} (hgap : IsGap gap) (t : Text) :
    l.StopsAt (gap ++ t) := by
  obtain ⟨c, more, rfl, hword, hnumber, hne⟩ := hgap
  refine ⟨fun _ d hd => ?_, fun _ hd => ?_⟩
  · cases hd
    exact ⟨hword, hnumber⟩
  · cases hd
    exact hne rfl

/-- A text begins like its first spelling. -/
theorem Written.head?_eq {gap : Text} {l : Lexeme} {ls : List Lexeme} {t : Text}
    (h : Written gap (l :: ls) t) : t.head? = l.text.head? := by
  obtain ⟨c, tail, htext⟩ := List.exists_cons_of_ne_nil l.text_ne_nil
  cases h <;> simp [htext]

theorem stopsAt_joined {gap : Text} {l m : Lexeme} {ls : List Lexeme} {t : Text}
    (hword : ¬(l.IsWordLike ∧ m.IsWordLike)) (hmerge : ¬l.Merges m)
    (h : Written gap (m :: ls) t) : l.StopsAt t where
  word := by
    intro hl c hc
    rw [h.head?_eq] at hc
    exact head_of_not_isWordLike (fun hm => hword ⟨hl, hm⟩) hc
  sign := by
    intro hl hhead
    rw [h.head?_eq] at hhead
    exact hmerge ⟨hl, hhead⟩

/-- What stands behind the first spelling does not go on with it. -/
theorem Written.exists_rest {gap : Text} (hgap : IsGap gap) {l : Lexeme} {ls : List Lexeme}
    {t : Text} (h : Written gap (l :: ls) t) : ∃ rest, t = l.text ++ rest ∧ l.StopsAt rest := by
  cases h with
  | last => exact ⟨[], (List.append_nil _).symm, stopsAt_nil l⟩
  | spaced h => exact ⟨_, rfl, stopsAt_gap l hgap _⟩
  | joined hword hmerge h => exact ⟨_, rfl, stopsAt_joined hword hmerge h⟩

/-! ### Reading -/

theorem scan_blank (t : Text) : Token.scan (' ' :: t) = Token.scan t := by
  have hblank : Token.scanOne ' ' t = .ok (none, t) := rfl
  rw [Statements.scan_cons, hblank]
  cases hscan : Token.scan t <;> simp [Except.bind, Except.map, hscan]

/-- **A text written with blanks is read as its tokens.** -/
theorem Written.reads {ls : List Lexeme} {t : Text} (h : Written [' '] ls t) :
    Token.scan t = .ok (ls.map Lexeme.token) := by
  induction h with
  | nil => rw [Token.scan, List.map_nil]
  | last l =>
    have hread := scan_append (stopsAt_nil l)
    rw [List.append_nil, Token.scan] at hread
    exact hread
  | @spaced l m ls t h ih =>
    rw [scan_append (stopsAt_gap l isGap_blank t), List.singleton_append, scan_blank, ih]
    rfl
  | @joined l m ls t hword hmerge h ih =>
    rw [scan_append (stopsAt_joined hword hmerge h), ih]
    rfl

/-! ### Writing blanks -/

theorem decodeSpaces_gap (t : Text) : decodeSpaces (spaceWord ++ t) = ' ' :: decodeSpaces t :=
  Text.replace_append (by decide) [' '] t

theorem not_isPrefix_of_not_mem {s u rest : Text} (hbar : '|' ∉ s) (hu : u <:+ s) (hne : u ≠ []) :
    ¬spaceWord <+: u ++ rest := by
  obtain ⟨c, u, rfl⟩ := List.exists_cons_of_ne_nil hne
  rintro ⟨more, heq⟩
  obtain ⟨rfl, -⟩ := List.cons.inj heq
  exact hbar (hu.subset List.mem_cons_self)

/-- The bars of a `||` begin no `|space|`. -/
theorem not_isPrefix_bars {rest u : Text} (hrest : ¬"space|".toList <+: rest)
    (hu : u <:+ ['|', '|']) (hne : u ≠ []) : ¬spaceWord <+: u ++ rest := by
  rintro ⟨more, heq⟩
  rcases List.suffix_cons_iff.1 hu with rfl | hu
  · have hnext : "space|".toList ++ more = '|' :: rest := (List.cons.inj heq).2
    exact absurd (List.cons.inj hnext).1 (by decide)
  rcases List.suffix_cons_iff.1 hu with rfl | hu
  · exact hrest ⟨more, (List.cons.inj heq).2⟩
  · exact hne (List.suffix_nil.1 hu)

/-- A quote parts what stands before it from what stands behind it. -/
theorem not_isPrefix_quoted {q : Char} {inner rest u : Text} (hquote : Statements.isQuote q = true)
    (hspace : ¬spaceWord <:+: inner) (hu : u <:+ q :: (inner ++ [q])) (hne : u ≠ []) :
    ¬spaceWord <+: u ++ rest := by
  have hq : q ∉ spaceWord := by
    rcases Statements.isQuote_iff.1 hquote with rfl | rfl <;> decide
  rintro ⟨more, heq⟩
  rcases List.suffix_cons_iff.1 hu with rfl | ⟨front, hu⟩
  · exact hq ((List.cons.inj heq).1 ▸ List.mem_cons_self)
  rcases List.eq_nil_or_concat u with rfl | ⟨v, c, rfl⟩
  · exact hne rfl
  rw [List.concat_eq_append, ← List.append_assoc] at hu
  obtain ⟨hinner, hlast⟩ := List.append_inj' hu rfl
  obtain rfl : c = q := by simpa using hlast
  rw [List.concat_eq_append, List.append_assoc, List.singleton_append] at heq
  obtain ⟨behind, rfl, -⟩ := Text.exists_of_append_eq hq heq
  exact hspace ⟨front, behind, by rw [List.append_assoc, hinner]⟩

/-- Nothing that a spelling ends with begins a `|space|`, if what stands behind it does not begin
with `space|`. -/
theorem not_spaceWord_isPrefix (l : Lexeme) {rest u : Text} (hrest : ¬"space|".toList <+: rest)
    (hu : u <:+ l.text) (hne : u ≠ []) : ¬spaceWord <+: u ++ rest := by
  obtain ⟨w, t, hspells⟩ := l
  cases hspells with
  | sign hsign =>
    have hall : ∀ row ∈ Token.signs, row.1 = ['|', '|'] ∨ '|' ∉ row.1 := by decide
    rcases hall _ hsign with hbars | hbar
    · exact not_isPrefix_bars hrest (hbars ▸ hu) hne
    · exact not_isPrefix_of_not_mem hbar hu hne
  | keyword hkeyword =>
    exact not_isPrefix_of_not_mem (Token.isWord_of_keyword hkeyword).bar_not_mem hu hne
  | truth b htruth =>
    exact not_isPrefix_of_not_mem (Token.isWord_of_truth htruth).bar_not_mem hu hne
  | name hname => exact not_isPrefix_of_not_mem hname.bar_not_mem hu hne
  | whole hdigits =>
    have hbar : '|' ∉ w := fun hbar => absurd (hdigits _ hbar) (by decide)
    exact not_isPrefix_of_not_mem hbar hu hne
  | point hdigits =>
    refine not_isPrefix_of_not_mem (fun hbar => ?_) hu hne
    have hmem := List.perm_middle.subset hbar
    rcases List.mem_cons.1 hmem with hpoint | hbar
    · exact absurd hpoint (by decide)
    · exact absurd (hdigits _ hbar) (by decide)
  | quoted hquote _ hspace => exact not_isPrefix_quoted hquote hspace hu hne

/-- A spelling stays, and what stands behind it is treated apart. -/
theorem decodeSpaces_append {l : Lexeme} {rest : Text} (hrest : ¬"space|".toList <+: rest) :
    decodeSpaces (l.text ++ rest) = l.text ++ decodeSpaces rest :=
  Text.replace_append_left [' '] rest fun _ => not_spaceWord_isPrefix l hrest

/-- Only the name `space` begins a text that begins with `space|`. -/
theorem Written.not_isPrefix {l : Lexeme} {ls : List Lexeme} {t : Text}
    (hl : l.token ≠ .ident "space".toList) (h : Written spaceWord (l :: ls) t) :
    ¬"space|".toList <+: t := by
  rintro ⟨more, heq⟩
  obtain ⟨rest, rfl, hstops⟩ := h.exists_rest isGap_spaceWord
  obtain ⟨c, tail, htext, hread⟩ := scanOne_append hstops
  rw [htext] at heq
  obtain ⟨rfl, htail⟩ := List.cons.inj heq
  have hname : Token.scanOne 's' ("pace|".toList ++ more) =
      .ok (some (.ident "space".toList), '|' :: more) := rfl
  rw [show tail ++ rest = "pace|".toList ++ more from htail.symm] at hread
  obtain ⟨htoken, -⟩ := Prod.mk.inj (Except.ok.inj (hname.symm.trans hread))
  exact hl (Option.some.inj htoken).symm

theorem decodeSpaces_text (l : Lexeme) : decodeSpaces l.text = l.text := by
  have hnil : ¬"space|".toList <+: ([] : Text) := by decide
  have hdecode := decodeSpaces_append (l := l) hnil
  rw [List.append_nil] at hdecode
  exact hdecode.trans (List.append_nil _)

theorem decodeSpaces_spaced (l : Lexeme) (t : Text) :
    decodeSpaces (l.text ++ (spaceWord ++ t)) = l.text ++ ([' '] ++ decodeSpaces t) := by
  have hgap : ¬"space|".toList <+: spaceWord ++ t := by
    rintro ⟨more, heq⟩
    exact absurd (List.cons.inj heq).1 (by decide)
  rw [decodeSpaces_append hgap, decodeSpaces_gap]
  rfl

/-- **Behind `decodeSpaces`, the gaps are blanks.** -/
theorem Written.decode {ls : List Lexeme} {t : Text}
    (hls : ∀ l ∈ ls, l.token ≠ .ident "space".toList) (h : Written spaceWord ls t) :
    Written [' '] ls (decodeSpaces t) := by
  induction h with
  | nil => exact .nil
  | last l =>
    rw [decodeSpaces_text]
    exact .last l
  | @spaced l m ls t h ih =>
    rw [decodeSpaces_spaced]
    exact .spaced (ih (List.forall_mem_cons.1 hls).2)
  | @joined l m ls t hword hmerge h ih =>
    obtain ⟨-, hrest⟩ := List.forall_mem_cons.1 hls
    rw [decodeSpaces_append (h.not_isPrefix (hrest m List.mem_cons_self))]
    exact .joined hword hmerge (ih hrest)

/-- With a gap between each two spellings, there may be the name `space` among them. -/
theorem written_intercalate (ls : List Lexeme) :
    Written [' '] ls (decodeSpaces (spaceWord.intercalate (ls.map Lexeme.text))) := by
  induction ls with
  | nil => exact .nil
  | cons l ls ih =>
    cases ls with
    | nil =>
      have htext : spaceWord.intercalate ([l].map Lexeme.text) = l.text := by
        simp [List.intercalate]
      rw [htext, decodeSpaces_text]
      exact .last l
    | cons m ls =>
      have htext : spaceWord.intercalate ((l :: m :: ls).map Lexeme.text) =
          l.text ++ (spaceWord ++ spaceWord.intercalate ((m :: ls).map Lexeme.text)) := by
        simp [List.intercalate]
      rw [htext, decodeSpaces_spaced]
      exact .spaced ih

/-- **Reading undoes writing.** Spellings with `|space|` between each two are read as their tokens.
Without a name `space` among them, the gap is not needed between two of them that are not both like
words, and of which the first does not become another sign by the `=` of the second. -/
theorem scan_written :
    (∀ ls : List Lexeme, Token.scan (decodeSpaces (spaceWord.intercalate (ls.map Lexeme.text))) =
      .ok (ls.map Lexeme.token)) ∧
    ∀ ls t, (∀ l ∈ ls, l.token ≠ .ident "space".toList) → Written spaceWord ls t →
      Token.scan (decodeSpaces t) = .ok (ls.map Lexeme.token) := by
  constructor
  · intro ls
    exact (written_intercalate ls).reads
  · intro ls t hls h
    exact (h.decode hls).reads

/-- The name `x`. -/
def nameX : Lexeme where
  text := ['x']
  token := .ident ['x']
  spells := by
    refine .name ⟨'x', [], rfl, by decide, fun d hd => nomatch hd⟩ (fun t ht => ?_) fun b => ?_
    · simp [Token.keywords] at ht
    · cases b <;> decide

/-- The sign `==`. -/
def equalSign : Lexeme := ⟨['=', '='], .op (.comparison .eq), .sign (by simp [Token.signs])⟩

/-- The word `true`. -/
def wordTrue : Lexeme := ⟨"true".toList, .bool true, .truth true (by decide)⟩

/-- A text in which one pair is joined and one is not. -/
theorem scan_written_joined :
    (∀ l ∈ [nameX, equalSign, wordTrue], l.token ≠ .ident "space".toList) ∧
      Written spaceWord [nameX, equalSign, wordTrue] "x==|space|true".toList ∧
      Token.scan (decodeSpaces "x==|space|true".toList) =
        .ok [.ident ['x'], .op (.comparison .eq), .bool true] := by
  have hnames : ∀ l ∈ [nameX, equalSign, wordTrue], l.token ≠ .ident "space".toList := by
    simp [nameX, equalSign, wordTrue]
  have hword : ¬(nameX.IsWordLike ∧ equalSign.IsWordLike) := by
    simp [equalSign, IsWordLike, Token.keywords]
  have hmerge : ¬nameX.Merges equalSign := by simp [Merges, nameX, openSigns]
  have hwritten : Written spaceWord [nameX, equalSign, wordTrue] "x==|space|true".toList :=
    .joined hword hmerge (.spaced (.last wordTrue))
  exact ⟨hnames, hwritten, scan_written.2 _ _ hnames hwritten⟩

-- Joined to the sign in front of it, the name `space` loses its gap to the bars.
example : decodeSpaces "||space|space|x".toList = "| space|x".toList := by decide

end Lexeme

end PadScript
