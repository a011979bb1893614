import PadScript.Script.Library

/-!
# Names and what they lead to

A block is stored under a name that the counter gives. This file says that such names are apart from
each other (`generatedName_inj`) and from the names of macros (`tag_append_ne_generatedName`), and
what storing entries does to what a label leads to.

* `Library.track?_add_block` : a block is found under its name, unless a macro has that name.
* `Library.track?_foldl_add` : entries that are blocks of other names do not matter to a label.
-/

namespace PadScript

/-! ### Generated names -/

theorem toDigits_ne_nil (n : Nat) : Nat.toDigits 16 n ≠ [] := by
  rw [Nat.toDigits_eq_if (by decide)]
  split <;> simp

theorem digitChar_inj {a b : Nat} (ha : a < 16) (hb : b < 16)
    (h : Nat.digitChar a = Nat.digitChar b) : a = b := by
  have hall : ∀ a < 16, ∀ b < 16, Nat.digitChar a = Nat.digitChar b → a = b := by decide
  exact hall a ha b hb h

/-- Different numbers have different numerals. -/
theorem toDigits_inj {m n : Nat} (h : Nat.toDigits 16 m = Nat.toDigits 16 n) : m = n := by
  induction m using Nat.strongRecOn generalizing n with
  | ind m ih =>
    -- both have one digit or both have more, as their lengths tell
    rw [Nat.toDigits_eq_if (n := m) (by decide), Nat.toDigits_eq_if (n := n) (by decide)] at h
    split at h
    next hm =>
      split at h
      next hn => exact digitChar_inj hm hn (List.singleton_inj.1 h)
      next =>
        have hlen := congrArg List.length h
        have hpos := List.length_pos_iff.2 (toDigits_ne_nil (n / 16))
        simp only [List.length_append, List.length_singleton] at hlen
        omega
    next hm =>
      split at h
      next =>
        have hlen := congrArg List.length h
        have hpos := List.length_pos_iff.2 (toDigits_ne_nil (m / 16))
        simp only [List.length_append, List.length_singleton] at hlen
        omega
      next hn =>
        obtain ⟨hfront, hlast⟩ := List.append_inj' h rfl
        have hdiv := ih (m / 16) (by omega) hfront
        have hmod := digitChar_inj (by omega) (by omega) (List.singleton_inj.1 hlast)
        omega

/-- A numeral is made of sixteen signs. -/
theorem exists_digit_of_mem {c : Char} {n : Nat} (h : c ∈ Nat.toDigits 16 n) :
    ∃ d < 16, c = Nat.digitChar d := by
  induction n using Nat.strongRecOn with
  | ind n ih =>
    rw [Nat.toDigits_eq_if (by decide)] at h
    split at h
    next hn => exact ⟨n, hn, List.mem_singleton.1 h⟩
    next hn =>
      rcases List.mem_append.1 h with h | h
      · exact ih (n / 16) (by omega) h
      · exact ⟨n % 16, by omega, List.mem_singleton.1 h⟩

theorem generatedName_inj {m n : Nat} (h : generatedName m = generatedName n) : m = n :=
  toDigits_inj (List.cons.inj h).2

/-- Neither a dot nor a bracket stands in a generated name. -/
theorem not_mem_generatedName (n : Nat) : '.' ∉ generatedName n ∧ ']' ∉ generatedName n := by
  have hall : ∀ d < 16, Nat.digitChar d ≠ '.' ∧ Nat.digitChar d ≠ ']' := by decide
  constructor
  · intro h
    rcases List.mem_cons.1 h with h | h
    · exact absurd h (by decide)
    · obtain ⟨d, hd, hc⟩ := exists_digit_of_mem h
      exact (hall d hd).1 hc.symm
  · intro h
    rcases List.mem_cons.1 h with h | h
    · exact absurd h (by decide)
    · obtain ⟨d, hd, hc⟩ := exists_digit_of_mem h
      exact (hall d hd).2 hc.symm

/-- No macro of a file has a generated name: its tag holds a dot. -/
theorem tag_append_ne_generatedName (path name : Text) (n : Nat) :
    tagOf path ++ name ≠ generatedName n := by
  intro h
  have hdot : '.' ∈ tagOf path ++ name := by simp [tagOf]
  rw [h] at hdot
  exact (not_mem_generatedName n).1 hdot

/-! ### Looking up -/

namespace Library

variable {l : Library} {label name : Text} {t : Track}

theorem track?_of_named_eq_none (h : l.named[label]? = none) :
    l.track? label = l.blocks[label]? := by
  simp [track?, h]

theorem named_of_track?_eq_none (h : l.track? label = none) : l.named[label]? = none := by
  unfold track? at h
  split at h
  · simp at h
  · assumption

/-- A block is found under its name, unless a macro has that name. -/
theorem track?_add_block (h : l.named[name]? = none) :
    (l.add (.block name t)).track? name = some t := by
  rw [track?_of_named_eq_none (by simpa [add] using h)]
  simp [add]

theorem track?_add_block_of_ne (h : name ≠ label) :
    (l.add (.block name t)).track? label = l.track? label := by
  simp only [track?, add, Std.TreeMap.getElem?_insert]
  simp [h]

theorem track?_add_named_of_ne {script : Script} (h : name ≠ label) :
    (l.add (.named name script)).track? label = l.track? label := by
  simp only [track?, add, Std.TreeMap.getElem?_insert]
  simp [h]

theorem named_add_block : (l.add (.block name t)).named = l.named := rfl

/-- Entries leave the number of the next block alone. -/
theorem foldl_add_counter (entries : List Entry) (l : Library) (n : Nat) :
    { entries.foldl add l with counter := n } = entries.foldl add { l with counter := n } := by
  induction entries generalizing l with
  | nil => rfl
  | cons e rest ih =>
    rw [List.foldl_cons, ih (l.add e), List.foldl_cons]
    cases e <;> rfl

/-- Blocks of other names do not matter to a label. -/
theorem track?_foldl_add {entries : List Entry}
    (h : ∀ e ∈ entries, ∃ name t, e = .block name t ∧ name ≠ label) (l : Library) :
    (entries.foldl add l).track? label = l.track? label := by
  induction entries generalizing l with
  | nil => rfl
  | cons e rest ih =>
    obtain ⟨name, t, rfl, hne⟩ := h e List.mem_cons_self
    rw [List.foldl_cons, ih (fun e he => h e (List.mem_cons_of_mem _ he)),
      track?_add_block_of_ne hne]

/-- Blocks do not matter to the macros. -/
theorem named_foldl_add {entries : List Entry} (h : ∀ e ∈ entries, ∃ name t, e = .block name t)
    (l : Library) : (entries.foldl add l).named = l.named := by
  induction entries generalizing l with
  | nil => rfl
  | cons e rest ih =>
    obtain ⟨name, t, rfl⟩ := h e List.mem_cons_self
    rw [List.foldl_cons, ih (fun e he => h e (List.mem_cons_of_mem _ he)), named_add_block]

end Library

end PadScript
