import PadScript.Proofs.Block.Desugar

/-!
# Overrides

A parameter has a value because the macro declares a default for it, or because the caller gives an
override. Both are read as plain text is (`Value.ofLiteral`), with one difference: a default may
stand between quotes, which do not belong to its value, and in an override they do.

* `Row.declaredValue_eq_iff` : **a text means the same in both places if and only if it does not
  stand between quotes.**
* `Params.get?_ofOverrides` : **a parameter has the value of its override, unless that is null or
  empty, and else its default.**
-/

namespace PadScript

/-! ### What a text stands for -/

/-- Plain text that is no truth value and no numeral is itself. -/
theorem Value.eq_of_ofLiteral {t s : Text} (h : ofLiteral t = .str s) : s = t := by
  unfold ofLiteral at h
  split at h
  · cases h
  · split at h
    · cases h
    · split at h
      · cases h
      · exact (Value.str.inj h).symm

namespace Row

/-- The text stands between two quotes of one kind. -/
def IsQuoted (t : Text) : Prop := ∃ s, t = '\'' :: (s ++ ['\'']) ∨ t = '"' :: (s ++ ['"'])

theorem unquote?_eq_some_iff {quote : Char} {t s : Text} :
    unquote? quote t = some s ↔ t = quote :: (s ++ [quote]) := by
  simp only [unquote?, Option.bind_eq_some_iff, Text.after?_eq_some_iff, Text.before?_eq_some_iff]
  constructor
  · rintro ⟨rest, rfl, rfl⟩
    rfl
  · rintro rfl
    exact ⟨_, rfl, rfl⟩

/-- **Only quotes make a difference.** -/
theorem declaredValue_eq_iff {t : Text} : declaredValue t = .ofLiteral t ↔ ¬ IsQuoted t := by
  constructor
  · rintro heq ⟨s, hs⟩
    -- the value is shorter than the text
    have hshorter : ∃ s', declaredValue t = .str s' ∧ s'.length < t.length := by
      cases hsingle : unquote? '\'' t with
      | some s' =>
        refine ⟨s', by simp [declaredValue, hsingle], ?_⟩
        rw [unquote?_eq_some_iff.1 hsingle, List.length_cons, List.length_append]
        omega
      | none =>
        have hdouble : unquote? '"' t = some s := by
          refine unquote?_eq_some_iff.2 (hs.resolve_left fun h => ?_)
          rw [unquote?_eq_some_iff.2 h] at hsingle
          cases hsingle
        refine ⟨s, by simp [declaredValue, hsingle, hdouble], ?_⟩
        rw [unquote?_eq_some_iff.1 hdouble, List.length_cons, List.length_append]
        omega
    obtain ⟨s', hvalue, hlength⟩ := hshorter
    rw [Value.eq_of_ofLiteral (heq.symm.trans hvalue)] at hlength
    exact Nat.lt_irrefl _ hlength
  · intro h
    have hnone : ∀ quote, quote = '\'' ∨ quote = '"' → unquote? quote t = none := by
      intro quote hquote
      rw [Option.eq_none_iff_forall_not_mem]
      intro s hs
      have ht := unquote?_eq_some_iff.1 hs
      rcases hquote with rfl | rfl
      · exact h ⟨s, .inl ht⟩
      · exact h ⟨s, .inr ht⟩
    simp [declaredValue, hnone]

/-- The row that declares a default, as it is read. -/
def declaring (key value : Text) : Text := defaultWord ++ (key ++ '=' :: value)

theorem head?_declaring (key value : Text) : (declaring key value).head? = some 'D' := rfl

theorem declaration?_declaring {key : Text} (hkey : key ≠ []) (hequal : '=' ∉ key)
    (value : Text) : declaration? (declaring key value) = some (key, declaredValue value) := by
  simp [declaration?, declaring, Text.after?_eq_some_iff.2 rfl, Text.cut?_append hequal, hkey]

/-- Without blanks the row is read as it is written. -/
theorem clean?_declaring {key value : Text} (hkey : key.all (!Text.isBlank ·) = true)
    (hvalue : value.all (!Text.isBlank ·) = true) :
    clean? (declaring key value) = some (declaring key value) := by
  have hword : defaultWord.all (!Text.isBlank ·) = true := by decide
  have hall : (declaring key value).all (!Text.isBlank ·) = true := by
    rw [declaring, List.all_append, List.all_append, List.all_cons, hword, hkey, hvalue]
    decide
  have hblank : ∀ c ∈ declaring key value, Text.isBlank c = false := fun c hc => by
    simpa using List.all_eq_true.1 hall c hc
  have hhead := head?_declaring key value
  refine clean?_eq_self (fun hnil => ?_) (fun c hc => ?_)
    (fun c hc => hblank c (List.mem_of_getLast? hc)) (fun hc => absurd (hblank _ hc) (by decide))
    (fun hc => absurd (hblank _ hc) (by decide))
  · simp [hnil] at hhead
  · obtain rfl : 'D' = c := Option.some.inj (hhead.symm.trans hc)
    decide

end Row

/-! ### Overrides over defaults -/

theorem Members.get?_eq_none {α : Type} {members : Members α} {key : Text}
    (h : key ∉ members.map Prod.fst) : members.get? key = none := by
  induction members with
  | nil => rfl
  | cons first rest ih =>
    rw [List.map_cons, List.mem_cons, not_or] at h
    rw [get?, if_neg (Ne.symm h.1), ih h.2]

namespace Params

/-- The override leaves a default in place. -/
def leavesDefault : Json → Bool
  | .null => true
  | .str [] => true
  | _ => false

variable {j : Json}

theorem ofOverride?_of_leavesDefault (h : leavesDefault j = true) :
    ∀ v, ofOverride? j = some v → isEmptyText v = true := by
  intro v hv
  unfold leavesDefault at h
  split at h
  · cases hv
  · obtain rfl := Option.some.inj hv
    rfl
  · cases h

/-- Any other override has a value that is not the empty text. -/
theorem exists_ofOverride? (h : leavesDefault j = false) :
    ∃ v, ofOverride? j = some v ∧ isEmptyText v = false := by
  cases j with
  | null => cases h
  | bool b => exact ⟨_, rfl, rfl⟩
  | number n => exact ⟨_, rfl, rfl⟩
  | str t =>
    refine ⟨_, rfl, ?_⟩
    cases hvalue : Value.ofLiteral t with
    | bool b => rfl
    | number x => rfl
    | str s =>
      obtain rfl := Value.eq_of_ofLiteral hvalue
      cases s with
      | nil => cases h
      | cons c rest => rfl
  | arr items => exact ⟨_, rfl, by simp [Json.compact, isEmptyText]⟩
  | obj members => exact ⟨_, rfl, by simp [Json.compact, isEmptyText]⟩

/-- The defaults with one override laid over them. -/
def laidOver (defaults : Bindings) (name : Text) (j : Json) : Bindings :=
  if leavesDefault j then defaults else (ofOverride? j).elim defaults (defaults.insert name)

/-- Overrides are laid over defaults one after another. -/
theorem ofOverrides_cons (defaults : Bindings) (name : Text) (j : Json) (rest : Overrides) :
    ofOverrides defaults ((name, j) :: rest) = ofOverrides (laidOver defaults name j) rest := by
  cases hleaves : leavesDefault j with
  | true =>
    cases hvalue : ofOverride? j with
    | none => simp [ofOverrides, overlay, laidOver, hleaves, hvalue]
    | some v =>
      simp [ofOverrides, overlay, laidOver, hleaves, hvalue,
        ofOverride?_of_leavesDefault hleaves v hvalue]
  | false =>
    obtain ⟨v, hvalue, hempty⟩ := exists_ofOverride? hleaves
    simp [ofOverrides, overlay, laidOver, hleaves, hvalue, hempty]

theorem getElem?_laidOver_self (defaults : Bindings) (name : Text) (j : Json) :
    (laidOver defaults name j)[name]? =
      if leavesDefault j then defaults[name]? else ofOverride? j := by
  cases hleaves : leavesDefault j with
  | true => simp [laidOver, hleaves]
  | false =>
    obtain ⟨v, hvalue, -⟩ := exists_ofOverride? hleaves
    simp [laidOver, hleaves, hvalue]

theorem getElem?_laidOver_of_ne {name key : Text} (h : name ≠ key) (defaults : Bindings)
    (j : Json) : (laidOver defaults name j)[key]? = defaults[key]? := by
  unfold laidOver
  split
  · rfl
  · cases ofOverride? j with
    | none => rfl
    | some v => simp [Std.TreeMap.getElem?_insert, h]

/-- **A parameter has the value of its override, unless that is null or empty, and else its
default.** -/
theorem get?_ofOverrides {overrides : Overrides} (h : (overrides.map Prod.fst).Nodup)
    (defaults : Bindings) (key : Text) :
    (ofOverrides defaults overrides).get? key =
      match overrides.get? key with
      | none => defaults[key]?
      | some j => if leavesDefault j then defaults[key]? else ofOverride? j := by
  induction overrides generalizing defaults with
  | nil => rfl
  | cons first rest ih =>
    obtain ⟨name, j⟩ := first
    obtain ⟨hfresh, hrest⟩ := List.nodup_cons.1 h
    rw [ofOverrides_cons, ih hrest]
    by_cases hname : name = key
    · subst hname
      rw [Members.get?_eq_none hfresh, Members.get?, if_pos rfl]
      exact getElem?_laidOver_self defaults name j
    · rw [Members.get?, if_neg hname, getElem?_laidOver_of_ne hname]

end Params

end PadScript
