import PadScript.Proofs.Statement.Cut

/-!
# The spelling of tokens

`Token.Spells w t` says that the text `w` spells the token `t`, by a rule for each kind of token: the
signs and the keywords stand in tables, truth values and names are words, numbers are digits with at
most one point, and texts stand between quotes. A `Lexeme` is a token with one of its spellings.

Tokens are read one after another, and each as far as it goes. So a spelling is read as its token if
what stands behind it does not go on with it, which is what `Lexeme.StopsAt` says.

* `Lexeme.scanOne_append` : **a spelling is read as its token, up to its end.**
* `Lexeme.scan_append` : and then comes what stands behind it.
-/

namespace PadScript

namespace Token

/-- The signs of operators and of the punctuation. -/
def signs : List (Text × Token) := [
  (['('], .lparen),
  ([')'], .rparen),
  ([';'], .semi),
  (['+'], .op (.arithmetic .add)),
  (['-'], .op (.arithmetic .sub)),
  (['*'], .op (.arithmetic .mul)),
  (['/'], .op (.arithmetic .div)),
  (['%'], .op (.arithmetic .rem)),
  (['='], .assign),
  (['=', '='], .op (.comparison .eq)),
  (['!'], .op .not),
  (['!', '='], .op (.comparison .ne)),
  (['<'], .op (.comparison .lt)),
  (['<', '='], .op (.comparison .le)),
  (['>'], .op (.comparison .gt)),
  (['>', '='], .op (.comparison .ge)),
  (['&', '&'], .op .and),
  (['|', '|'], .op .or)]

/-- The words that are operators. -/
def keywords : List (Text × Token) := [
  ("and".toList, .op .and),
  ("or".toList, .op .or),
  ("not".toList, .op .not)]

/-- The word for a truth value, in small letters. -/
def truthWord (b : Bool) : Text := if b then "true".toList else "false".toList

/-- The text is a word. -/
def IsWord (w : Text) : Prop := ∃ c rest, w = c :: rest ∧ isWordStart c = true ∧
  ∀ d ∈ rest, isWordChar d = true

/-- The number that digits before and behind a point stand for. -/
def decimal (whole fraction : Text) : Float :=
  (Number.Numeral.finite false (Number.digitsValue (whole ++ fraction))
    (-(fraction.length : Int))).toFloat

/-- A text spells a token. -/
inductive Spells : Text → Token → Prop
  /-- A sign. -/
  | sign {w : Text} {t : Token} (h : (w, t) ∈ signs) : Spells w t
  /-- A keyword. -/
  | keyword {w : Text} {t : Token} (h : (w, t) ∈ keywords) : Spells w t
  /-- A truth value, in letters of either case. -/
  | truth {w : Text} (b : Bool) (h : Text.eqIgnoreCase w (truthWord b) = true) : Spells w (.bool b)
  /-- A name: a word that is neither a keyword nor a truth value. -/
  | name {w : Text} (hword : IsWord w) (hkeyword : ∀ t, (w, t) ∉ keywords)
      (htruth : ∀ b, Text.eqIgnoreCase w (truthWord b) = false) : Spells w (.ident w)
  /-- A whole number. -/
  | whole {digits : Text} (h : ∀ c ∈ digits, Number.isDigit c = true) (hne : digits ≠ []) :
      Spells digits (.number (decimal digits []))
  /-- A number with a point, and a digit at least on one side of it. -/
  | point {digits fraction : Text} (h : ∀ c ∈ digits ++ fraction, Number.isDigit c = true)
      (hne : digits ++ fraction ≠ []) :
      Spells (digits ++ '.' :: fraction) (.number (decimal digits fraction))
  /-- A text between quotes that it does not hold. It holds no spelling of a blank either. -/
  | quoted {q : Char} {t : Text} (hquote : Statements.isQuote q = true) (hinner : q ∉ t)
      (hspace : ¬spaceWord <:+: t) : Spells (q :: (t ++ [q])) (.str t)

end Token

/-- A token and one of its spellings. -/
structure Lexeme where
  /-- How it is spelled. -/
  text : Text
  /-- The token. -/
  token : Token
  /-- So it is. -/
  spells : Token.Spells text token

namespace Lexeme

/-- The token is spelled with letters, digits and the like: a name, a keyword, a truth value or a
number. -/
def IsWordLike (l : Lexeme) : Prop :=
  (∃ w, l.token = .ident w) ∨ (l.text, l.token) ∈ Token.keywords ∨ (∃ b, l.token = .bool b) ∨
    ∃ x, l.token = .number x

/-- The signs that are part of another sign with a `=` behind them. -/
def openSigns : List Text := [['='], ['<'], ['>'], ['!']]

/-- The text does not go on with the spelling of the token. -/
structure StopsAt (l : Lexeme) (rest : Text) : Prop where
  /-- It does not go on with a word or a number. -/
  word : l.IsWordLike → ∀ c ∈ rest.head?, Token.isWordChar c = false ∧ Token.isNumberChar c = false
  /-- It does not make another sign of the sign. -/
  sign : l.text ∈ openSigns → rest.head? ≠ some '='

end Lexeme

namespace Token

/-! ### Characters and runs of them -/

theorem isAlpha_of_toLower {c : Char} (h : c.toLower.isAlpha = true) : c.isAlpha = true := by
  unfold Char.toLower at h
  split at h
  next hupper =>
    unfold Char.isAlpha Char.isUpper
    rw [decide_eq_true hupper, Bool.true_or]
  next => exact h

/-- No character begins a word and a number. -/
theorem isNumberChar_of_isWordStart {c : Char} (h : isWordStart c = true) :
    isNumberChar c = false := by
  rw [Bool.eq_false_iff]
  intro hnumber
  unfold isWordStart Char.isAlpha Char.isUpper Char.isLower at h
  unfold isNumberChar Number.isDigit at hnumber
  simp only [Bool.or_eq_true, Bool.and_eq_true, decide_eq_true_eq, beq_iff_eq, Char.le_def,
    Char.ext_iff, ← UInt32.toNat_inj, UInt32.le_iff_toNat_le, ge_iff_le, Char.reduceVal,
    UInt32.reduceToNat] at h hnumber
  omega

theorem isWordChar_of_isWordStart {c : Char} (h : isWordStart c = true) : isWordChar c = true := by
  simp only [isWordStart, Bool.or_eq_true] at h
  simp only [isWordChar, Char.isAlphanum, Bool.or_eq_true]
  exact h.imp_left .inl

theorem takeWhile_append_of_head {p : Char → Bool} {w rest : Text} (hw : ∀ c ∈ w, p c = true)
    (hrest : ∀ c ∈ rest.head?, p c = false) : (w ++ rest).takeWhile p = w := by
  rw [List.takeWhile_append_of_pos hw]
  cases rest with
  | nil => simp
  | cons c rest => simp [hrest c rfl]

theorem dropWhile_append_of_head {p : Char → Bool} {w rest : Text} (hw : ∀ c ∈ w, p c = true)
    (hrest : ∀ c ∈ rest.head?, p c = false) : (w ++ rest).dropWhile p = rest := by
  rw [List.dropWhile_append_of_pos hw]
  cases rest with
  | nil => rfl
  | cons c rest => simp [hrest c rfl]

/-- What begins a word or a number is no sign. -/
theorem scanOne_run {c : Char} (h : isWordStart c = true ∨ isNumberChar c = true) (t : Text) :
    scanOne c t = scanRun c t := by
  have hne : ∀ d, isWordStart d = false ∧ isNumberChar d = false → c ≠ d := by
    rintro d hd rfl
    simp [hd] at h
  have hchar : ofChar? c = none := by
    unfold ofChar?
    split <;> first | rfl | exact absurd rfl (hne _ (by decide))
  have hequals : ofCharEquals? c = none := by
    unfold ofCharEquals?
    split <;> first | rfl | exact absurd rfl (hne _ (by decide))
  have htwice : ofCharTwice? c = none := by
    unfold ofCharTwice?
    split <;> first | rfl | exact absurd rfl (hne _ (by decide))
  have hblank : ¬(c = ' ' ∨ c = '\t') :=
    not_or.2 ⟨hne ' ' (by decide), hne '\t' (by decide)⟩
  have hquote : ¬(c = '\'' ∨ c = '"') :=
    not_or.2 ⟨hne '\'' (by decide), hne '"' (by decide)⟩
  simp only [scanOne, if_neg hblank, if_neg hquote, hchar, hequals, htwice]

theorem skipChar_of_head {c : Char} {t : Text} (h : t.head? ≠ some c) :
    skipChar c t = (false, t) := by
  cases t with
  | nil => rfl
  | cons d t =>
    have hne : d ≠ c := by
      rintro rfl
      exact h rfl
    simp only [skipChar, if_neg hne]

/-! ### Words -/

theorem isWord_of_map_toLower {w word : Text} (h : w.map Char.toLower = word) (hne : word ≠ [])
    (halpha : word.all Char.isAlpha = true) : IsWord w := by
  have hw : ∀ c ∈ w, isWordStart c = true := fun c hc => by
    have hlower := List.all_eq_true.1 halpha c.toLower (h ▸ List.mem_map_of_mem hc)
    simp [isWordStart, isAlpha_of_toLower hlower]
  cases w with
  | nil => exact absurd h.symm hne
  | cons c rest =>
    exact ⟨c, rest, rfl, hw c List.mem_cons_self,
      fun d hd => isWordChar_of_isWordStart (hw d (List.mem_cons_of_mem _ hd))⟩

/-- The spellings of a truth value are words. -/
theorem isWord_of_truth {w : Text} {b : Bool} (h : Text.eqIgnoreCase w (truthWord b) = true) :
    IsWord w := by
  rw [Text.eqIgnoreCase, beq_iff_eq] at h
  cases b <;> exact isWord_of_map_toLower h (by decide) (by decide)

theorem isWord_of_keyword {w : Text} {t : Token} (h : (w, t) ∈ keywords) : IsWord w := by
  have hall : ∀ row ∈ keywords, row.1.map Char.toLower = row.1 ∧ row.1 ≠ [] ∧
      row.1.all Char.isAlpha = true := by decide
  obtain ⟨hlower, hne, halpha⟩ := hall _ h
  exact isWord_of_map_toLower hlower hne halpha

theorem ofWord_keyword {w : Text} {t : Token} (h : (w, t) ∈ keywords) : ofWord w = t := by
  simp only [keywords, List.mem_cons, Prod.mk.injEq, List.not_mem_nil, or_false] at h
  rcases h with ⟨rfl, rfl⟩ | ⟨rfl, rfl⟩ | ⟨rfl, rfl⟩ <;> rfl

/-- A word that is no keyword is a truth value or a name. -/
theorem ofWord_of_not_keyword {w : Text} (h : ∀ t, (w, t) ∉ keywords) :
    ofWord w = if Text.eqIgnoreCase w (truthWord true) then .bool true
      else if Text.eqIgnoreCase w (truthWord false) then .bool false else .ident w := by
  have hne : ∀ row ∈ keywords, w ≠ row.1 := by
    rintro row hrow rfl
    exact h row.2 hrow
  simp only [keywords, List.forall_mem_cons] at hne
  obtain ⟨hand, hor, hnot, -⟩ := hne
  simp only [ofWord, if_neg hand, if_neg hor, if_neg hnot, truthWord]
  rfl

theorem ofWord_truth {w : Text} {b : Bool} (h : Text.eqIgnoreCase w (truthWord b) = true) :
    ofWord w = .bool b := by
  have hkeyword : ∀ t, (w, t) ∉ keywords := fun t hmem => by
    have hnone : ∀ row ∈ keywords, ∀ b, Text.eqIgnoreCase row.1 (truthWord b) = false := by decide
    rw [hnone _ hmem b] at h
    cases h
  rw [ofWord_of_not_keyword hkeyword]
  cases b with
  | true => rw [if_pos h]
  | false =>
    -- no word is spelled like both
    have htrue : ¬Text.eqIgnoreCase w (truthWord true) = true := fun htrue => by
      rw [Text.eqIgnoreCase, beq_iff_eq] at h htrue
      exact absurd (h.symm.trans htrue) (by decide)
    rw [if_neg htrue, if_pos h]

theorem ofWord_name {w : Text} (hkeyword : ∀ t, (w, t) ∉ keywords)
    (htruth : ∀ b, Text.eqIgnoreCase w (truthWord b) = false) : ofWord w = .ident w := by
  rw [ofWord_of_not_keyword hkeyword, htruth true, htruth false]
  rfl

theorem IsWord.bar_not_mem {w : Text} (h : IsWord w) : '|' ∉ w := by
  obtain ⟨c, rest, rfl, hstart, hrest⟩ := h
  intro hbar
  rcases List.mem_cons.1 hbar with rfl | hbar
  · exact absurd hstart (by decide)
  · exact absurd (hrest _ hbar) (by decide)

/-- A word is read up to its end. -/
theorem IsWord.scanOne {w rest : Text} (h : IsWord w)
    (hrest : ∀ c ∈ rest.head?, isWordChar c = false) :
    ∃ c tail, w = c :: tail ∧ scanOne c (tail ++ rest) = .ok (some (ofWord w), rest) := by
  obtain ⟨c, tail, rfl, hstart, htail⟩ := h
  refine ⟨c, tail, rfl, ?_⟩
  rw [scanOne_run (.inl hstart), scanRun, isNumberChar_of_isWordStart hstart,
    takeWhile_append_of_head htail hrest, dropWhile_append_of_head htail hrest, hstart]
  rfl

/-! ### Numbers -/

/-- A number is not spelled like a word. -/
theorem map_toLower_ne {t word : Text} (ht : ∀ c ∈ t, isNumberChar c = true) (hne : word ≠ [])
    (halpha : word.all Char.isAlpha = true) : t.map Char.toLower ≠ word := by
  intro heq
  obtain ⟨c, rest, rfl, hstart, -⟩ := isWord_of_map_toLower heq hne halpha
  have hnumber := ht c List.mem_cons_self
  rw [isNumberChar_of_isWordStart hstart] at hnumber
  cases hnumber

theorem splitSign_number {t : Text} (h : ∀ c ∈ t, isNumberChar c = true) :
    Number.splitSign t = (false, t) := by
  unfold Number.splitSign
  split
  · exact absurd (h '-' List.mem_cons_self) (by decide)
  · exact absurd (h '+' List.mem_cons_self) (by decide)
  · rfl

section Decimal

variable {whole fraction tail rest : Text} (hwhole : ∀ c ∈ whole, Number.isDigit c = true)
  (hfraction : ∀ c ∈ fraction, Number.isDigit c = true)
  (htail : tail = '.' :: fraction ∨ tail = [] ∧ fraction = [])

include hwhole hfraction htail

theorem isNumberChar_of_decimal : ∀ c ∈ whole ++ tail, isNumberChar c = true := by
  have hdigit : ∀ c, Number.isDigit c = true → isNumberChar c = true := fun c hc => by
    simp [isNumberChar, hc]
  rw [List.forall_mem_append]
  refine ⟨fun c hc => hdigit c (hwhole c hc), ?_⟩
  rcases htail with rfl | ⟨rfl, -⟩
  · exact List.forall_mem_cons.2 ⟨by decide, fun c hc => hdigit c (hfraction c hc)⟩
  · exact List.forall_mem_nil _

/-- **Digits with at most one point are read as the number they stand for.** -/
theorem readFloat?_decimal (hne : whole ++ fraction ≠ []) :
    Number.readFloat? (whole ++ tail) = some (decimal whole fraction) := by
  have hnumber := isNumberChar_of_decimal hwhole hfraction htail
  have hnan : (whole ++ tail).map Char.toLower ≠ "nan".toList :=
    map_toLower_ne hnumber (by decide) (by decide)
  have hinf : (whole ++ tail).map Char.toLower ≠ "inf".toList :=
    map_toLower_ne hnumber (by decide) (by decide)
  have hinfinity : (whole ++ tail).map Char.toLower ≠ "infinity".toList :=
    map_toLower_ne hnumber (by decide) (by decide)
  have hhead : ∀ c ∈ tail.head?, Number.isDigit c = false := by
    rcases htail with rfl | ⟨rfl, -⟩
    · rintro c ⟨⟩
      decide
    · rintro c ⟨⟩
  have hempty : (whole ++ fraction).isEmpty = false := by rwa [List.isEmpty_eq_false_iff]
  simp only [Number.readFloat?, Number.Numeral.read?, splitSign_number hnumber,
    Number.Numeral.readUnsigned?, if_neg hnan, if_neg (not_or.2 ⟨hinf, hinfinity⟩),
    takeWhile_append_of_head hwhole hhead, dropWhile_append_of_head hwhole hhead]
  rcases htail with rfl | ⟨rfl, rfl⟩
  · have hend : ∀ c ∈ ([] : Text).head?, Number.isDigit c = false := by rintro c ⟨⟩
    have htake := takeWhile_append_of_head hfraction hend
    have hdrop := dropWhile_append_of_head hfraction hend
    rw [List.append_nil] at htake hdrop
    simp only [htake, hdrop, hempty, Number.Numeral.readExponent?, Bool.false_eq_true, if_false,
      Option.map_some, decimal, Int.zero_sub]
  · simp only [hempty, Number.Numeral.readExponent?, Bool.false_eq_true, if_false, Option.map_some,
      decimal, Int.zero_sub]

/-- A number is read up to its end. -/
theorem scanOne_decimal (hne : whole ++ fraction ≠ [])
    (hrest : ∀ c ∈ rest.head?, isNumberChar c = false) :
    ∃ c more, whole ++ tail = c :: more ∧
      scanOne c (more ++ rest) = .ok (some (.number (decimal whole fraction)), rest) := by
  have hnumber := isNumberChar_of_decimal hwhole hfraction htail
  have hread := readFloat?_decimal hwhole hfraction htail hne
  cases hw : whole ++ tail with
  | nil =>
    obtain ⟨rfl, rfl⟩ := List.append_eq_nil_iff.1 hw
    rcases htail with h | ⟨-, rfl⟩
    · cases h
    · exact absurd rfl hne
  | cons c more =>
    rw [hw] at hnumber hread
    obtain ⟨hc, hmore⟩ := List.forall_mem_cons.1 hnumber
    refine ⟨c, more, rfl, ?_⟩
    rw [scanOne_run (.inr hc), scanRun, if_pos hc, takeWhile_append_of_head hmore hrest,
      dropWhile_append_of_head hmore hrest, hread]

end Decimal

/-! ### Signs -/

/-- The signs that can go on with a `=` are read alone where no `=` follows. -/
theorem scanOne_open {c : Char} {alone joined : Token} {rest : Text}
    (h : ofCharEquals? c = some (alone, joined)) (hrest : rest.head? ≠ some '=') :
    scanOne c rest = .ok (some alone, rest) := by
  unfold ofCharEquals? at h
  split at h <;> cases h <;>
    simp [scanOne, ofChar?, ofCharEquals?, skipChar_of_head hrest]

/-- A sign is read up to its end. -/
theorem scanOne_sign {w rest : Text} {t : Token} (h : (w, t) ∈ signs)
    (hrest : w ∈ Lexeme.openSigns → rest.head? ≠ some '=') :
    ∃ c tail, w = c :: tail ∧ scanOne c (tail ++ rest) = .ok (some t, rest) := by
  have hall : ∀ row ∈ signs, (row.1 ∈ Lexeme.openSigns → rest.head? ≠ some '=') →
      ∃ c tail, row.1 = c :: tail ∧ scanOne c (tail ++ rest) = .ok (some row.2, rest) := by
    simp only [signs, List.forall_mem_cons]
    and_intros
    all_goals
      first
      | exact fun _ => ⟨_, _, rfl, rfl⟩
      | exact fun hrest => ⟨_, _, rfl, scanOne_open rfl (hrest (by decide))⟩
      | exact List.forall_mem_nil _
  exact hall (w, t) h hrest

end Token

namespace Lexeme

/-- **A spelling is read as its token, up to its end.** -/
theorem scanOne_append {l : Lexeme} {rest : Text} (h : l.StopsAt rest) :
    ∃ c tail, l.text = c :: tail ∧ Token.scanOne c (tail ++ rest) = .ok (some l.token, rest) := by
  obtain ⟨w, t, hspells⟩ := l
  have hword : IsWordLike ⟨w, t, hspells⟩ → (∀ c ∈ rest.head?, Token.isWordChar c = false) ∧
      ∀ c ∈ rest.head?, Token.isNumberChar c = false := fun hlike =>
    ⟨fun c hc => (h.word hlike c hc).1, fun c hc => (h.word hlike c hc).2⟩
  cases hspells with
  | sign hsign => exact Token.scanOne_sign hsign h.sign
  | keyword hkeyword =>
    have hread := (Token.isWord_of_keyword hkeyword).scanOne (hword (.inr (.inl hkeyword))).1
    rwa [Token.ofWord_keyword hkeyword] at hread
  | truth b htruth =>
    have hread := (Token.isWord_of_truth htruth).scanOne (hword (.inr (.inr (.inl ⟨b, rfl⟩)))).1
    rwa [Token.ofWord_truth htruth] at hread
  | name hname hkeyword htruth =>
    have hread := hname.scanOne (hword (.inl ⟨w, rfl⟩)).1
    rwa [Token.ofWord_name hkeyword htruth] at hread
  | whole hdigits hne =>
    have hread := Token.scanOne_decimal hdigits (List.forall_mem_nil _) (.inr ⟨rfl, rfl⟩)
      (by rwa [List.append_nil]) (hword (.inr (.inr (.inr ⟨_, rfl⟩)))).2
    rwa [List.append_nil] at hread
  | point hdigits hne =>
    rw [List.forall_mem_append] at hdigits
    exact Token.scanOne_decimal hdigits.1 hdigits.2 (.inl rfl) hne
      (hword (.inr (.inr (.inr ⟨_, rfl⟩)))).2
  | @quoted q inner hquote hinner =>
    refine ⟨q, inner ++ [q], rfl, ?_⟩
    rw [List.append_assoc, List.singleton_append, Statements.scanOne_quote hquote,
      Statements.scanQuoted_append hinner]

theorem stopsAt_nil (l : Lexeme) : l.StopsAt [] := ⟨by simp, by simp⟩

theorem text_ne_nil (l : Lexeme) : l.text ≠ [] := by
  obtain ⟨c, tail, htext, -⟩ := scanOne_append (stopsAt_nil l)
  simp [htext]

/-- **A spelling is read as its token, and then comes what stands behind it.** -/
theorem scan_append {l : Lexeme} {rest : Text} (h : l.StopsAt rest) :
    Token.scan (l.text ++ rest) = (Token.scan rest).map (l.token :: ·) := by
  obtain ⟨c, tail, htext, hread⟩ := scanOne_append h
  rw [htext, List.cons_append, Statements.scan_cons, hread]
  rfl

end Lexeme

end PadScript
