import Mathlib.Tactic.SplitIfs
import PadScript.Json.Reader.String
import PadScript.Proofs.Library.Lookup
import PadScript.Text.Quote

/-!
# Reading texts between quotes

`Text.quoted` writes a text as a string literal. This file reads literals, by the rules that a
literal has to obey and not by how `Text.escape` chooses among them: what is no literal, as a bare
quote, an escape of another letter or a number that no character has, is refused.

* `Text.scalar?_toDigits` : the number of a character leads back to it.
* `Text.character?_escape` : **a character is read back from the way it is written**.
* `Text.literal?_quoted` : **a text between quotes is read back**, and what stands behind the
  closing quote is left.
-/

namespace PadScript.Text

/-! ### Numbers of characters -/

/-- The number that hexadecimal digits write. -/
def hexNumber? (digits : Text) : Option Nat :=
  (digits.mapM Json.Reader.hexDigit?).map fun values => values.foldl (fun n d => 16 * n + d) 0

/-- The character with a number of one to six hexadecimal digits. -/
def scalar? (digits : Text) : Option Char :=
  if 1 ≤ digits.length ∧ digits.length ≤ 6 then
    match hexNumber? digits with
    | some n => if n.isValidChar then some (Char.ofNat n) else none
    | none => none
  else none

theorem hexDigit?_digitChar {d : Nat} (h : d < 16) :
    Json.Reader.hexDigit? (Nat.digitChar d) = some d := by
  have hall : ∀ d < 16, Json.Reader.hexDigit? (Nat.digitChar d) = some d := by decide
  exact hall d h

/-- One more digit behind a number. -/
theorem hexNumber?_append {digits : Text} {n d : Nat} (hdigits : hexNumber? digits = some n)
    (hd : d < 16) : hexNumber? (digits ++ [Nat.digitChar d]) = some (16 * n + d) := by
  obtain ⟨values, hvalues, rfl⟩ := Option.map_eq_some_iff.1 hdigits
  rw [hexNumber?, List.mapM_append, hvalues]
  simp [hexDigit?_digitChar hd]

theorem hexNumber?_toDigits (n : Nat) : hexNumber? (Nat.toDigits 16 n) = some n := by
  induction n using Nat.strongRecOn with
  | ind n ih =>
    rw [Nat.toDigits_eq_if (by decide)]
    split
    next hn =>
      have hnothing : hexNumber? [] = some 0 := rfl
      simpa using hexNumber?_append hnothing hn
    next hn =>
      rw [hexNumber?_append (ih (n / 16) (by omega)) (by omega)]
      congr 1
      omega

/-- The number of a character leads back to it. -/
theorem scalar?_toDigits (c : Char) : scalar? (Nat.toDigits 16 c.toNat) = some c := by
  have hvalid : c.toNat.isValidChar := c.valid
  have hlt : c.toNat < 16 ^ 6 := by
    rcases hvalid with h | ⟨-, h⟩ <;> omega
  have hlen : 1 ≤ (Nat.toDigits 16 c.toNat).length ∧ (Nat.toDigits 16 c.toNat).length ≤ 6 :=
    ⟨List.length_pos_iff.2 (toDigits_ne_nil _),
      (Nat.length_toDigits_le_iff (by decide) (by decide)).2 hlt⟩
  rw [scalar?, if_pos hlen, hexNumber?_toDigits]
  simp only [if_pos hvalid, Char.ofNat_toNat]

/-! ### Literals -/

/-- The character that a letter behind a backslash stands for. -/
def letter? : Char → Option Char
  | '"' => some '"'
  | '\\' => some '\\'
  | 't' => some '\t'
  | 'n' => some '\n'
  | 'r' => some '\r'
  | '0' => some '\x00'
  | _ => none

/-- The first character of a text between quotes, and what stands behind it. -/
def character? : Text → Option (Char × Text)
  | '\\' :: 'u' :: '{' :: rest =>
    match cut? '}' rest with
    | some (digits, rest) => (scalar? digits).map (·, rest)
    | none => none
  | '\\' :: c :: rest => (letter? c).map (·, rest)
  | c :: rest => if c = '\\' ∨ c = '"' ∨ c = '\r' then none else some (c, rest)
  | [] => none

theorem length_lt_of_character? {t rest : Text} {c : Char} (h : character? t = some (c, rest)) :
    rest.length < t.length := by
  unfold character? at h
  split at h
  next =>
    split at h
    next hcut =>
      obtain ⟨_, _, heq⟩ := Option.map_eq_some_iff.1 h
      obtain ⟨-, rfl⟩ := Prod.mk.inj heq
      have hle := length_le_of_cut? hcut
      simp only [List.length_cons]
      omega
    next => cases h
  next =>
    obtain ⟨_, _, heq⟩ := Option.map_eq_some_iff.1 h
    obtain ⟨-, rfl⟩ := Prod.mk.inj heq
    simp only [List.length_cons]
    omega
  next =>
    split at h
    next => cases h
    next =>
      obtain ⟨-, rfl⟩ := Prod.mk.inj (Option.some.inj h)
      exact Nat.lt_succ_self _
  next => cases h

/-- The text up to the closing quote, and what stands behind that. -/
def closed? (t : Text) : Option (Text × Text) :=
  if t.head? = some '"' then some ([], t.tail)
  else
    match _h : character? t with
    | some (c, rest) => (closed? rest).map fun (text, behind) => (c :: text, behind)
    | none => none
termination_by t.length
decreasing_by exact length_lt_of_character? ‹_›

/-- The text of a literal, and what stands behind the literal. -/
def literal? : Text → Option (Text × Text)
  | '"' :: t => closed? t
  | _ => none

/-! ### Reading back -/

/-- The sign that ends the number of a character is none of its digits. -/
theorem brace_not_mem_toDigits (n : Nat) : '}' ∉ Nat.toDigits 16 n := by
  have hall : ∀ d < 16, Nat.digitChar d ≠ '}' := by decide
  intro h
  obtain ⟨d, hd, hc⟩ := exists_digit_of_mem h
  exact hall d hd hc.symm

theorem character?_letter {c d : Char} (h : letter? c = some d) (rest : Text) :
    character? ('\\' :: c :: rest) = some (d, rest) := by
  have hne : c ≠ 'u' := by
    rintro rfl
    cases h
  unfold character?
  split
  next heq => exact absurd (List.cons.inj (List.cons.inj heq).2).1 hne
  next heq =>
    obtain ⟨rfl, rfl⟩ := List.cons.inj (List.cons.inj heq).2
    rw [h, Option.map_some]
  next hesc heq =>
    obtain ⟨rfl, rfl⟩ := List.cons.inj heq
    exact absurd rfl (hesc c rest rfl)
  next heq => cases heq

theorem character?_plain {c : Char} (h : ¬(c = '\\' ∨ c = '"' ∨ c = '\r')) (rest : Text) :
    character? (c :: rest) = some (c, rest) := by
  have hne : c ≠ '\\' := fun heq => h (.inl heq)
  unfold character?
  split
  next heq => exact absurd (List.cons.inj heq).1 hne
  next heq => exact absurd (List.cons.inj heq).1 hne
  next heq =>
    obtain ⟨rfl, rfl⟩ := List.cons.inj heq
    rw [if_neg h]
  next heq => cases heq

/-- **A character is read back from the way it is written.** -/
theorem character?_escape (c : Char) (rest : Text) :
    character? (escape c ++ rest) = some (c, rest) := by
  unfold escape
  split_ifs with hquote htab hnewline hreturn hzero
  · rcases hquote with rfl | rfl <;> exact character?_letter rfl rest
  · subst htab
    exact character?_letter rfl rest
  · subst hnewline
    exact character?_letter rfl rest
  · subst hreturn
    exact character?_letter rfl rest
  · obtain rfl : c = '\x00' := Char.toNat_inj.1 hzero
    exact character?_letter rfl rest
  · have hcut := cut?_append (brace_not_mem_toDigits c.toNat) rest
    have hshape : "\\u\x7b".toList ++ Nat.toDigits 16 c.toNat ++ ['}'] ++ rest =
        '\\' :: 'u' :: '{' :: (Nat.toDigits 16 c.toNat ++ '}' :: rest) := by simp
    rw [hshape, character?, hcut]
    simp only [scalar?_toDigits, Option.map_some]
  · refine character?_plain ?_ rest
    rintro (h | h | h)
    · exact hquote (.inr h)
    · exact hquote (.inl h)
    · exact hreturn h

/-- No character is written with a quote in front. -/
theorem head?_escape_ne (c : Char) (rest : Text) : (escape c ++ rest).head? ≠ some '"' := by
  unfold escape
  split_ifs with hquote <;> simp_all

theorem closed?_escape (c : Char) (rest : Text) :
    closed? (escape c ++ rest) =
      (closed? rest).map fun (text, behind) => (c :: text, behind) := by
  rw [closed?, if_neg (head?_escape_ne c rest), character?_escape]

/-- **A text between quotes is read back**, and what stands behind the closing quote is left. -/
theorem literal?_quoted (t rest : Text) : literal? (quoted t ++ rest) = some (t, rest) := by
  suffices hclosed : closed? (t.flatMap escape ++ '"' :: rest) = some (t, rest) by
    simpa [quoted, literal?] using hclosed
  induction t with
  | nil => simp [closed?]
  | cons c t ih =>
    rw [List.flatMap_cons, List.append_assoc, closed?_escape, ih]
    rfl

end PadScript.Text
