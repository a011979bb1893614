import PadScript.Script.Token

/-!
# Cutting a source into statements

The tokens of a source are found in one go, over all its statements. This file cuts the text at the
semicolons outside quotes before anything is read, and shows that this comes to the same: the tokens
of the source are those of its parts with a semicolon between each two, and its fault is that of the
first part that has one.

* `Statements.cut` : the parts of a text.
* `Statements.cut_induction` : a text is its last part, or a closed part, a semicolon and the rest.
* `Statements.scan_append` : **the tokens of a closed part, a semicolon, the tokens of the rest.**
* `Statements.Whole.semi_not_mem` : the tokens of a part hold no semicolon.
-/

namespace PadScript

namespace Statements

/-- The signs around a text. -/
def isQuote (c : Char) : Bool := c == '\'' || c == '"'

/-- The parts of a text between the semicolons outside quotes, given the quote that is open. -/
def cut (quote? : Option Char) : Text → List Text
  | [] => [[]]
  | c :: rest =>
    match quote? with
    | some q => (cut (if c = q then none else some q) rest).modifyHead (c :: ·)
    | none =>
      if c = ';' then [] :: cut none rest
      else (cut (if isQuote c then some c else none) rest).modifyHead (c :: ·)

/-- No semicolon stands outside quotes. Every quote is closed if `closed` asks for it, and else the
last one may be open. -/
inductive Whole (closed : Bool) : Text → Prop
  | nil : Whole closed []
  | plain {c : Char} {t : Text} (hsemi : c ≠ ';') (hquote : isQuote c = false)
      (h : Whole closed t) : Whole closed (c :: t)
  | quoted {q : Char} {inner t : Text} (hquote : isQuote q) (hinner : q ∉ inner)
      (h : Whole closed t) : Whole closed (q :: (inner ++ q :: t))
  | unclosed {q : Char} {inner : Text} (hclosed : closed = false) (hquote : isQuote q)
      (hinner : q ∉ inner) : Whole closed (q :: inner)

theorem isQuote_iff {c : Char} : isQuote c ↔ c = '\'' ∨ c = '"' := by
  simp [isQuote]

theorem ne_semi_of_isQuote {c : Char} (h : isQuote c) : c ≠ ';' := by
  rcases isQuote_iff.1 h with rfl | rfl <;> decide

/-! ### The parts of a text -/

theorem cut_quoted {q : Char} {inner : Text} (h : q ∉ inner) (t : Text) :
    cut (some q) (inner ++ q :: t) = (cut none t).modifyHead (inner ++ q :: ·) := by
  induction inner with
  | nil => simp [cut]
  | cons c inner ih =>
    simp only [List.mem_cons, not_or] at h
    simp only [List.cons_append, cut, if_neg (Ne.symm h.1), ih h.2, List.modifyHead_modifyHead]
    rfl

theorem cut_unclosed {q : Char} {inner : Text} (h : q ∉ inner) : cut (some q) inner = [inner] := by
  induction inner with
  | nil => rfl
  | cons c inner ih =>
    simp only [List.mem_cons, not_or] at h
    simp only [cut, if_neg (Ne.symm h.1), ih h.2, List.modifyHead_cons]

/-- **A text is its last part, or a closed part, a semicolon and the rest.** -/
theorem exists_cut (t : Text) :
    (∃ p rest, t = p ++ ';' :: rest ∧ Whole true p ∧ cut none t = p :: cut none rest) ∨
      Whole false t ∧ cut none t = [t] := by
  induction hn : t.length using Nat.strongRecOn generalizing t with
  | ind n ih =>
    subst hn
    cases t with
    | nil => exact .inr ⟨.nil, rfl⟩
    | cons c t =>
      by_cases hsemi : c = ';'
      · subst hsemi
        exact .inl ⟨[], t, rfl, .nil, by simp [cut]⟩
      by_cases hquote : isQuote c
      · by_cases hmem : c ∈ t
        · obtain ⟨inner, t', rfl, hinner⟩ := List.eq_append_cons_of_mem hmem
          have hcut : cut none (c :: (inner ++ c :: t')) =
              (cut none t').modifyHead fun p => c :: (inner ++ c :: p) := by
            simp only [cut, if_neg hsemi, hquote, if_true, cut_quoted hinner,
              List.modifyHead_modifyHead]
            rfl
          rcases ih t'.length (by simp; omega) t' rfl with ⟨p, rest, rfl, hp, hrest⟩ | ⟨ht, hrest⟩
          · exact .inl ⟨c :: (inner ++ c :: p), rest, by simp, .quoted hquote hinner hp,
              by rw [hcut, hrest, List.modifyHead_cons]⟩
          · exact .inr ⟨.quoted hquote hinner ht, by rw [hcut, hrest, List.modifyHead_cons]⟩
        · refine .inr ⟨.unclosed rfl hquote hmem, ?_⟩
          simp [cut, hsemi, hquote, cut_unclosed hmem]
      · have hcut : cut none (c :: t) = (cut none t).modifyHead (c :: ·) := by
          simp [cut, hsemi, hquote]
        rw [Bool.not_eq_true] at hquote
        rcases ih t.length (Nat.lt_succ_self _) t rfl with ⟨p, rest, rfl, hp, hrest⟩ | ⟨ht, hrest⟩
        · exact .inl ⟨c :: p, rest, rfl, .plain hsemi hquote hp,
            by rw [hcut, hrest, List.modifyHead_cons]⟩
        · exact .inr ⟨.plain hsemi hquote ht, by rw [hcut, hrest, List.modifyHead_cons]⟩

/-- **A text is followed from one semicolon outside quotes to the next.** -/
theorem cut_induction {motive : Text → Prop}
    (last : ∀ t, Whole false t → cut none t = [t] → motive t)
    (more : ∀ p rest, Whole true p → cut none (p ++ ';' :: rest) = p :: cut none rest →
      motive rest → motive (p ++ ';' :: rest)) (t : Text) : motive t := by
  induction hn : t.length using Nat.strongRecOn generalizing t with
  | ind n ih =>
    subst hn
    rcases exists_cut t with ⟨p, rest, rfl, hp, hcut⟩ | ⟨ht, hcut⟩
    · exact more p rest hp hcut (ih rest.length (by simp; omega) rest rfl)
    · exact last t ht hcut

/-! ### The tokens of a part -/

section Whole

variable {closed : Bool} {c : Char} {t : Text}

theorem Whole.tail (h : Whole closed (c :: t)) (hquote : isQuote c = false) : Whole closed t := by
  cases h with
  | plain _ _ h => exact h
  | quoted hq | unclosed _ hq => simp [hq] at hquote

theorem Whole.ne_semi (h : Whole closed (c :: t)) : c ≠ ';' := by
  cases h with
  | plain hsemi => exact hsemi
  | quoted hq | unclosed _ hq => exact ne_semi_of_isQuote hq

theorem Whole.dropWhile (h : Whole closed t) {p : Char → Bool}
    (hp : ∀ c, p c → isQuote c = false) : Whole closed (t.dropWhile p) := by
  induction t with
  | nil => exact h
  | cons c t ih =>
    cases hc : p c with
    | true =>
      rw [List.dropWhile_cons_of_pos hc]
      exact ih (h.tail (hp c hc))
    | false => rwa [List.dropWhile_cons_of_neg (by simp [hc])]

theorem Whole.skipChar (h : Whole closed t) {d : Char} (hd : isQuote d = false) :
    Whole closed (Token.skipChar d t).2 := by
  cases t with
  | nil => exact h
  | cons c t =>
    simp only [Token.skipChar]
    split
    next hc =>
      subst hc
      exact h.tail hd
    next => exact h

end Whole

/-! ### One token in front of a semicolon -/

/-- No sign of a number is a quote or a semicolon. -/
theorem isNumberChar_eq_false {c : Char} (h : isQuote c ∨ c = ';') :
    Token.isNumberChar c = false := by
  rw [isQuote_iff] at h
  rcases h with (rfl | rfl) | rfl <;> decide

/-- No sign of a name is a quote or a semicolon. -/
theorem isWordChar_eq_false {c : Char} (h : isQuote c ∨ c = ';') : Token.isWordChar c = false := by
  rw [isQuote_iff] at h
  rcases h with (rfl | rfl) | rfl <;> decide

theorem isQuote_eq_false {p : Char → Bool} (hp : ∀ c, isQuote c ∨ c = ';' → p c = false) {c : Char}
    (h : p c) : isQuote c = false := by
  cases hquote : isQuote c with
  | false => rfl
  | true => simp [hp c (.inl hquote)] at h

theorem takeWhile_append {p : Char → Bool} (hp : p ';' = false) (t more : Text) :
    (t ++ ';' :: more).takeWhile p = t.takeWhile p := by
  induction t with
  | nil => simp [hp]
  | cons c t ih => simp only [List.cons_append, List.takeWhile_cons, ih]

theorem dropWhile_append {p : Char → Bool} (hp : p ';' = false) (t more : Text) :
    (t ++ ';' :: more).dropWhile p = t.dropWhile p ++ ';' :: more := by
  induction t with
  | nil => simp [hp]
  | cons c t ih =>
    simp only [List.cons_append, List.dropWhile_cons, ih]
    split <;> rfl

theorem skipChar_append {d : Char} (hd : d ≠ ';') (t more : Text) :
    Token.skipChar d (t ++ ';' :: more) =
      ((Token.skipChar d t).1, (Token.skipChar d t).2 ++ ';' :: more) := by
  cases t with
  | nil => simp [Token.skipChar, Ne.symm hd]
  | cons c t =>
    simp only [List.cons_append, Token.skipChar]
    split <;> rfl

/-- A token and the text behind it, with a semicolon and more text at the end. -/
def extend (more : Text) (taken : Option Token × Text) : Option Token × Text :=
  (taken.1, taken.2 ++ ';' :: more)

theorem scanRun_append (c : Char) (t more : Text) :
    Token.scanRun c (t ++ ';' :: more) = (Token.scanRun c t).map (extend more) := by
  have hnumber := isNumberChar_eq_false (c := ';') (.inr rfl)
  have hword := isWordChar_eq_false (c := ';') (.inr rfl)
  simp only [Token.scanRun, takeWhile_append hnumber, dropWhile_append hnumber,
    takeWhile_append hword, dropWhile_append hword]
  split
  · cases Number.readFloat? (c :: t.takeWhile Token.isNumberChar) <;> rfl
  · split <;> rfl

theorem scanQuoted_append {q : Char} {inner : Text} (h : q ∉ inner) (t : Text) :
    Token.scanQuoted q (inner ++ q :: t) = .ok (some (.str inner), t) := by
  simp only [Token.scanQuoted, Text.cut?_append h]

theorem scanQuoted_unclosed {q : Char} {inner : Text} (h : q ∉ inner) :
    Token.scanQuoted q inner = .error .unterminatedString := by
  have hcut : Text.cut? q inner = none := by
    induction inner with
    | nil => rfl
    | cons c inner ih =>
      simp only [List.mem_cons, not_or] at h
      simp [Text.cut?, Ne.symm h.1, ih h.2]
  simp only [Token.scanQuoted, hcut]

/-- What a quote begins is a text. -/
theorem scanOne_quote {q : Char} (hquote : isQuote q) (t : Text) :
    Token.scanOne q t = Token.scanQuoted q t := by
  rcases isQuote_iff.1 hquote with rfl | rfl <;> simp [Token.scanOne]

theorem scanOne_append_of_plain {c : Char} (hsemi : c ≠ ';') (hquote : isQuote c = false)
    (t more : Text) :
    Token.scanOne c (t ++ ';' :: more) = (Token.scanOne c t).map (extend more) := by
  have hnot : ¬ (c = '\'' ∨ c = '"') := by
    rw [← isQuote_iff, hquote]
    simp
  simp only [Token.scanOne, if_neg hnot]
  split
  · rfl
  split
  · rfl
  · simp only [skipChar_append (by decide : '=' ≠ ';')]
    rfl
  · simp only [skipChar_append hsemi]
    split <;> rfl
  · exact scanRun_append c t more

/-- **The first token of a closed part is the same with a semicolon behind the part.** -/
theorem scanOne_append {c : Char} {t : Text} (h : Whole true (c :: t)) (more : Text) :
    Token.scanOne c (t ++ ';' :: more) = (Token.scanOne c t).map (extend more) := by
  cases h with
  | plain hsemi hquote => exact scanOne_append_of_plain hsemi hquote t more
  | @quoted _ inner t hquote hinner =>
    rw [scanOne_quote hquote, scanOne_quote hquote, List.append_assoc, List.cons_append,
      scanQuoted_append hinner, scanQuoted_append hinner]
    rfl
  | unclosed hclosed => cases hclosed

theorem Whole.behind_run {closed : Bool} {c : Char} {t rest : Text} {token? : Option Token}
    (h : Whole closed t) (hscan : Token.scanRun c t = .ok (token?, rest)) : Whole closed rest := by
  simp only [Token.scanRun] at hscan
  split at hscan
  · split at hscan
    · cases hscan
      exact h.dropWhile fun d => isQuote_eq_false fun _ => isNumberChar_eq_false
    · cases hscan
  · split at hscan
    · cases hscan
      exact h.dropWhile fun d => isQuote_eq_false fun _ => isWordChar_eq_false
    · cases hscan

/-- **Behind the first token of a part there is a part.** -/
theorem Whole.behind {closed : Bool} {c : Char} {t rest : Text} {token? : Option Token}
    (h : Whole closed (c :: t)) (hscan : Token.scanOne c t = .ok (token?, rest)) :
    Whole closed rest := by
  cases h with
  | @quoted _ inner t hquote hinner h =>
    rw [scanOne_quote hquote, scanQuoted_append hinner] at hscan
    cases hscan
    exact h
  | unclosed _ hquote hinner =>
    rw [scanOne_quote hquote, scanQuoted_unclosed hinner] at hscan
    cases hscan
  | plain hsemi hquote h =>
    simp only [Token.scanOne] at hscan
    split at hscan
    · cases hscan
      exact h
    split at hscan
    next hc => simp [isQuote_iff.2 hc] at hquote
    split at hscan
    · cases hscan
      exact h
    · cases hscan
      exact h.skipChar (by decide)
    · split at hscan
      · cases hscan
        exact h.skipChar hquote
      · cases hscan
    · exact h.behind_run hscan

theorem ofWord_ne_semi (w : Text) : Token.ofWord w ≠ .semi := by
  unfold Token.ofWord
  repeat' split
  all_goals simp

theorem eq_semi_of_ofChar {c : Char} (h : Token.ofChar? c = some .semi) : c = ';' := by
  unfold Token.ofChar? at h
  split at h <;> simp_all

theorem ne_semi_of_ofCharEquals {c : Char} {alone joined : Token}
    (h : Token.ofCharEquals? c = some (alone, joined)) : alone ≠ .semi ∧ joined ≠ .semi := by
  unfold Token.ofCharEquals? at h
  split at h <;> simp_all <;> simp [← h.1, ← h.2]

theorem ne_semi_of_ofCharTwice {c : Char} {t : Token} (h : Token.ofCharTwice? c = some t) :
    t ≠ .semi := by
  unfold Token.ofCharTwice? at h
  split at h <;> simp_all <;> simp [← h]

theorem ne_some_semi_of_run {c : Char} {t rest : Text} {token? : Option Token}
    (hscan : Token.scanRun c t = .ok (token?, rest)) : token? ≠ some .semi := by
  simp only [Token.scanRun] at hscan
  split at hscan
  · split at hscan
    · cases hscan
      simp
    · cases hscan
  · split at hscan
    · cases hscan
      simp [ofWord_ne_semi]
    · cases hscan

/-- Only a semicolon outside quotes is read as one. -/
theorem Whole.ne_some_semi {closed : Bool} {c : Char} {t rest : Text} {token? : Option Token}
    (h : Whole closed (c :: t)) (hscan : Token.scanOne c t = .ok (token?, rest)) :
    token? ≠ some .semi := by
  simp only [Token.scanOne] at hscan
  split at hscan
  · cases hscan
    simp
  split at hscan
  · simp only [Token.scanQuoted] at hscan
    split at hscan
    · cases hscan
      simp
    · cases hscan
  split at hscan
  next token hchar =>
    cases hscan
    intro hsemi
    cases hsemi
    exact h.ne_semi (eq_semi_of_ofChar hchar)
  next alone joined _ hchar =>
    cases hscan
    split
    · simpa using (ne_semi_of_ofCharEquals hchar).2
    · simpa using (ne_semi_of_ofCharEquals hchar).1
  next token _ _ hchar =>
    split at hscan
    · cases hscan
      simpa using ne_semi_of_ofCharTwice hchar
    · cases hscan
  · exact ne_some_semi_of_run hscan

/-! ### The tokens of a source -/

theorem scan_cons (c : Char) (t : Text) :
    Token.scan (c :: t) =
      (Token.scanOne c t).bind fun taken =>
        (Token.scan taken.2).map fun ts => taken.1.toList ++ ts := by
  rw [Token.scan]
  split
  next fault hone => simp only [hone, Except.bind]
  next token? rest hone =>
    simp only [hone, Except.bind]
    cases Token.scan rest <;> rfl

/-- **The tokens of a closed part, a semicolon, the tokens of the rest.** -/
theorem scan_append {p : Text} (h : Whole true p) (rest : Text) :
    Token.scan (p ++ ';' :: rest) =
      (Token.scan p).bind fun ts => (Token.scan rest).map fun us => ts ++ .semi :: us := by
  induction hn : p.length using Nat.strongRecOn generalizing p with
  | ind n ih =>
    subst hn
    cases p with
    | nil =>
      simp only [List.nil_append, scan_cons, Token.scan, Except.bind]
      rfl
    | cons c p =>
      rw [List.cons_append, scan_cons, scan_cons, scanOne_append h]
      cases hone : Token.scanOne c p with
      | error fault => rfl
      | ok taken =>
        obtain ⟨token?, left⟩ := taken
        have hshorter := Token.scanOne_shrinks hone
        have hleft := ih left.length (by simp; omega) (h.behind hone) rfl
        simp only [Except.map, Except.bind, extend, hleft]
        cases Token.scan left with
        | error fault => rfl
        | ok ts => cases Token.scan rest <;> simp

/-- The tokens of a part hold no semicolon. -/
theorem Whole.semi_not_mem {closed : Bool} {p : Text} {ts : List Token} (h : Whole closed p)
    (hscan : Token.scan p = .ok ts) : .semi ∉ ts := by
  induction hn : p.length using Nat.strongRecOn generalizing p ts with
  | ind n ih =>
    subst hn
    cases p with
    | nil =>
      rw [Token.scan] at hscan
      cases hscan
      simp
    | cons c p =>
      rw [scan_cons] at hscan
      cases hone : Token.scanOne c p with
      | error fault => simp [hone, Except.bind] at hscan
      | ok taken =>
        obtain ⟨token?, left⟩ := taken
        have hshorter := Token.scanOne_shrinks hone
        simp only [hone, Except.bind] at hscan
        cases hleft : Token.scan left with
        | error fault => simp [hleft, Except.map] at hscan
        | ok us =>
          have hus := ih left.length (by simp; omega) (h.behind hone) hleft rfl
          simp only [hleft, Except.map] at hscan
          cases hscan
          simp only [List.mem_append, Option.mem_toList, not_or]
          exact ⟨h.ne_some_semi hone, hus⟩

end Statements

end PadScript
