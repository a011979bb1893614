import Mathlib.Data.List.Nodup
import Mathlib.Logic.Equiv.Defs
import PadScript.Proofs.Library.Names
import PadScript.Proofs.Library.Renaming

/-!
# Loads in another order

Two loads of the same files in different orders give the same numbers to different blocks. There is
one renumbering that leads from the blocks of one load to those of the other. What a name stands
for depends on the order only if more than one file names it, as the last of them counts.

* `Library.exists_renumbering` : **there is one renumbering for all files.**
* `Library.Reordered.track?_renamed` : the blocks of two loads are alike.
* `Library.Reordered.mem_names_iff` : two loads have macros of the same names.
* `Library.Reordered.get?_renamed` : **a macro is alike if the files that name it come in the same
  order.**
-/

namespace PadScript

/-! ### The numbers of files -/

namespace Library

/-- Files, each with the number that its blocks are counted from. -/
def placed : (files : List ScriptFile) → (counter : Nat) → List (ScriptFile × Nat)
  | [], _ => []
  | f :: rest, counter => (f, counter) :: placed rest (Block.last [f.block] counter)

theorem map_fst_placed (files : List ScriptFile) (counter : Nat) :
    (placed files counter).map Prod.fst = files := by
  induction files generalizing counter with
  | nil => rfl
  | cons f rest ih => rw [placed, List.map_cons, ih]

theorem visitsFrom_eq (files : List ScriptFile) (counter : Nat) :
    visitsFrom files counter = (placed files counter).flatMap fun p => p.1.visits p.2 := by
  induction files generalizing counter with
  | nil => rfl
  | cons f rest ih => rw [visitsFrom, placed, List.flatMap_cons, ih]

theorem le_of_mem_placed {files : List ScriptFile} {counter : Nat} {p : ScriptFile × Nat}
    (h : p ∈ placed files counter) : counter ≤ p.2 := by
  induction files generalizing counter with
  | nil => simp [placed] at h
  | cons f rest ih =>
    rcases List.mem_cons.1 h with rfl | h
    · exact Nat.le_refl _
    · exact Nat.le_trans (Block.counter_le_last ..) (ih h)

/-- The numbers from `c` on, of which the first `a` and the `b` behind them change places. -/
def swapRanges (c a b : Nat) : Equiv.Perm Nat where
  toFun n := if n < c then n else if n < c + a then n + b else if n < c + a + b then n - a else n
  invFun n := if n < c then n else if n < c + b then n + a else if n < c + b + a then n - b else n
  left_inv n := by
    dsimp only
    split_ifs <;> omega
  right_inv n := by
    dsimp only
    split_ifs <;> omega

section SwapRanges

variable {c a b n : Nat}

theorem swapRanges_of_lt (h : n < c) : swapRanges c a b n = n := if_pos h

theorem swapRanges_first {i : Nat} (h : i < a) : swapRanges c a b (c + i) = c + b + i := by
  show (if c + i < c then c + i else if c + i < c + a then c + i + b
    else if c + i < c + a + b then c + i - a else c + i) = c + b + i
  rw [if_neg (by omega), if_pos (by omega)]
  omega

theorem swapRanges_second {i : Nat} (h : i < b) : swapRanges c a b (c + a + i) = c + i := by
  show (if c + a + i < c then c + a + i else if c + a + i < c + a then c + a + i + b
    else if c + a + i < c + a + b then c + a + i - a else c + a + i) = c + i
  rw [if_neg (by omega), if_neg (by omega), if_pos (by omega)]
  omega

theorem swapRanges_of_le (h : c + a + b ≤ n) : swapRanges c a b n = n := by
  show (if n < c then n else if n < c + a then n + b else if n < c + a + b then n - a else n) = n
  rw [if_neg (by omega), if_neg (by omega), if_neg (by omega)]

end SwapRanges

/-- **There is one renumbering for all files** of two loads: it takes the numbers that a file is
given in one of them to those that it is given in the other. -/
theorem exists_renumbering {files files' : List ScriptFile} (hperm : files.Perm files')
    (hfiles : ∀ f ∈ files, f.Unnumbered) (c : Nat) :
    ∃ ρ : Equiv.Perm Nat, (∀ n < c, ρ n = n) ∧
      ∀ p ∈ placed files c, ∃ m, (p.1, m) ∈ placed files' c ∧
        ∀ i < p.1.size, ρ (p.2 + i) = m + i := by
  -- that it leaves the numbers below `c` alone is for the files in front
  induction hperm generalizing c with
  | nil => exact ⟨Equiv.refl _, fun _ _ => rfl, by simp [placed]⟩
  | @cons f l l' _ ih =>
    have hf := hfiles f List.mem_cons_self
    obtain ⟨ρ, hfixed, hplaced⟩ :=
      ih (fun g hg => hfiles g (List.mem_cons_of_mem _ hg)) (Block.last [f.block] c)
    rw [hf.last_eq] at hfixed
    refine ⟨ρ, fun n hn => hfixed n (Nat.lt_add_right _ hn), fun p hp => ?_⟩
    rcases List.mem_cons.1 hp with rfl | hp
    · exact ⟨c, List.mem_cons_self, fun i hi => hfixed _ (Nat.add_lt_add_left hi c)⟩
    · obtain ⟨m, hm, hshift⟩ := hplaced p hp
      exact ⟨m, List.mem_cons_of_mem _ hm, hshift⟩
  | swap g f l =>
    have hf := hfiles f List.mem_cons_self
    have hg := hfiles g (by simp)
    refine ⟨swapRanges c f.size g.size, fun n hn => swapRanges_of_lt hn, fun p hp => ?_⟩
    simp only [placed, hf.last_eq, hg.last_eq] at hp ⊢
    rcases List.mem_cons.1 hp with rfl | hp
    · exact ⟨c + g.size, by simp, fun i hi => swapRanges_first hi⟩
    · rcases List.mem_cons.1 hp with rfl | hp
      · exact ⟨c, by simp, fun i hi => swapRanges_second hi⟩
      · have hle := le_of_mem_placed hp
        rw [Nat.add_right_comm] at hp
        exact ⟨p.2, by simp [hp], fun i _ => swapRanges_of_le (Nat.le_add_right_of_le hle)⟩
  | trans hfirst _ ih ih' =>
    obtain ⟨ρ, hfixed, hplaced⟩ := ih hfiles c
    obtain ⟨ρ', hfixed', hplaced'⟩ := ih' (fun f hf => hfiles f (hfirst.mem_iff.2 hf)) c
    refine ⟨ρ.trans ρ', fun n hn => ?_, fun p hp => ?_⟩
    · rw [Equiv.trans_apply, hfixed n hn, hfixed' n hn]
    · obtain ⟨m, hm, hshift⟩ := hplaced p hp
      obtain ⟨m', hm', hshift'⟩ := hplaced' (p.1, m) hm
      exact ⟨m', hm', fun i hi => by rw [Equiv.trans_apply, hshift i hi, hshift' i hi]⟩

/-! ### Two loads of the same files -/

theorem exists_of_forall₂ {α β : Type} {R : α → β → Prop} {l : List α} {l' : List β}
    (h : List.Forall₂ R l l') {a : α} (ha : a ∈ l) : ∃ b ∈ l', R a b := by
  induction h with
  | nil => simp at ha
  | @cons a' b l l' hab _ ih =>
    rcases List.mem_cons.1 ha with rfl | ha
    · exact ⟨b, List.mem_cons_self, hab⟩
    · obtain ⟨b', hb', hrel⟩ := ih ha
      exact ⟨b', List.mem_cons_of_mem _ hb', hrel⟩

/-- Two loads of the same script files, with a renumbering of their blocks. -/
structure Reordered (ρ : Equiv.Perm Nat) (files files' : List ScriptFile) : Prop where
  /-- The files are the same. -/
  perm : files.Perm files'
  /-- No file comes twice. -/
  nodup : files.Nodup
  /-- They are script files. -/
  isScriptPath : ∀ f ∈ files, isScriptPath f.path = true
  /-- None of them writes the name of a block by itself. -/
  unnumbered : ∀ f ∈ files, f.Unnumbered
  /-- The numbers of a file stand for those that it has in the other load. -/
  numbers : ∀ f m m', (f, m) ∈ placed files 0 → (f, m') ∈ placed files' 0 →
    ∀ i < f.size, ρ (m + i) = m' + i

variable {files files' : List ScriptFile}

/-- A file that comes once has one number. -/
theorem eq_of_mem_placed (hnodup : files.Nodup) {counter m m' : Nat} {f : ScriptFile}
    (hm : (f, m) ∈ placed files counter) (hm' : (f, m') ∈ placed files counter) : m = m' := by
  rw [← map_fst_placed files counter] at hnodup
  exact congrArg Prod.snd (List.inj_on_of_nodup_map hnodup hm hm' rfl)

theorem exists_mem_placed {f : ScriptFile} (hf : f ∈ files) (counter : Nat) :
    ∃ m, (f, m) ∈ placed files counter := by
  rw [← map_fst_placed files counter] at hf
  obtain ⟨⟨_, m⟩, hm, rfl⟩ := List.mem_map.1 hf
  exact ⟨m, hm⟩

theorem mem_of_mem_placed {p : ScriptFile × Nat} {counter : Nat} (hp : p ∈ placed files counter) :
    p.1 ∈ files := by
  rw [← map_fst_placed files counter]
  exact List.mem_map_of_mem hp

theorem exists_reordered (hperm : files.Perm files') (hnodup : files.Nodup)
    (hpath : ∀ f ∈ files, PadScript.isScriptPath f.path = true)
    (hfiles : ∀ f ∈ files, f.Unnumbered) : ∃ ρ, Reordered ρ files files' := by
  obtain ⟨ρ, -, hplaced⟩ := exists_renumbering hperm hfiles 0
  refine ⟨ρ, hperm, hnodup, hpath, hfiles, fun f m m' hm hm' i hi => ?_⟩
  obtain ⟨m'', hm'', hshift⟩ := hplaced (f, m) hm
  rw [eq_of_mem_placed (hperm.nodup_iff.1 hnodup) hm' hm'']
  exact hshift i hi

namespace Reordered

variable {ρ : Equiv.Perm Nat} (h : Reordered ρ files files')

include h

theorem visits_eq : visits files = (placed files 0).flatMap fun p => p.1.visits p.2 := by
  rw [visits, List.filter_eq_self.2 h.isScriptPath, visitsFrom_eq]

theorem visits_eq' : visits files' = (placed files' 0).flatMap fun p => p.1.visits p.2 := by
  have hpath : ∀ f ∈ files', PadScript.isScriptPath f.path = true :=
    fun f hf => h.isScriptPath f (h.perm.mem_iff.2 hf)
  rw [visits, List.filter_eq_self.2 hpath, visitsFrom_eq]

/-- The visits that a file takes in the two loads are alike. -/
theorem renamed_visits {f : ScriptFile} {m m' : Nat} (hm : (f, m) ∈ placed files 0)
    (hm' : (f, m') ∈ placed files' 0) :
    List.Forall₂ (Visit.Renamed ρ) (f.visits m) (f.visits m') :=
  (h.unnumbered f (mem_of_mem_placed hm)).renamed_visits (h.numbers f m m' hm hm')

/-- Every visit of one load has one that is alike in the other. -/
theorem exists_renamed {v : Visit} (hv : v ∈ visits files) :
    ∃ v' ∈ visits files', v.Renamed ρ v' := by
  rw [h.visits_eq] at hv
  obtain ⟨⟨f, m⟩, hm, hv⟩ := List.mem_flatMap.1 hv
  obtain ⟨m', hm'⟩ := exists_mem_placed (h.perm.mem_iff.1 (mem_of_mem_placed hm)) 0
  obtain ⟨v', hv', hrenamed⟩ := exists_of_forall₂ (h.renamed_visits hm hm') hv
  rw [h.visits_eq']
  exact ⟨v', List.mem_flatMap.2 ⟨_, hm', hv'⟩, hrenamed⟩

/-- And the other way round. -/
theorem exists_renamed' {v' : Visit} (hv' : v' ∈ visits files') :
    ∃ v ∈ visits files, v.Renamed ρ v' := by
  rw [h.visits_eq'] at hv'
  obtain ⟨⟨f, m'⟩, hm', hv'⟩ := List.mem_flatMap.1 hv'
  obtain ⟨m, hm⟩ := exists_mem_placed (h.perm.mem_iff.2 (mem_of_mem_placed hm')) 0
  obtain ⟨v, hv, hrenamed⟩ := exists_of_forall₂ (h.renamed_visits hm hm').flip hv'
  rw [h.visits_eq]
  exact ⟨v, List.mem_flatMap.2 ⟨_, hm, hv⟩, hrenamed⟩

end Reordered

/-! ### Blocks -/

/-- Where no row opens a block with the marker of a generated name, that name leads to the own lines
of the block that has it. -/
theorem track?_eq_some_iff {n : Nat} (hmarker : Unopened files (Row.marker (generatedName n)))
    {t : Track} :
    (load files).track? (generatedName n) = some t ↔
      ∃ v ∈ visits files, v.block.origin = .block (generatedName n) ∧ v.ownLines ≠ [] ∧
        t = ⟨v.ownLines⟩ := by
  constructor
  · intro ht
    obtain ⟨v, hv, e, he, hlabel, rfl⟩ := exists_entry ht
    obtain ⟨hname, htrack⟩ := eq_ownLines hmarker hv he hlabel
    have hlines := (v.isSegment he).lines
    rw [htrack] at hlines
    exact ⟨v, hv, hname, hlines, htrack⟩
  · rintro ⟨v, hv, hname, hlines, rfl⟩
    have hsome := isSome_track? hv (Visit.ownLines_mem_entries hname hlines)
    obtain ⟨t, ht⟩ := Option.isSome_iff_exists.1 hsome
    obtain ⟨u, hu, e, he, hlabel, rfl⟩ := exists_entry ht
    obtain ⟨huname, htrack⟩ := eq_ownLines hmarker hu he hlabel
    -- only one block has this name
    obtain rfl : u = v := eq_of_name hu hv (by rw [huname]; rfl) (by rw [hname]; rfl)
    exact htrack ▸ ht

namespace Reordered

variable {ρ : Equiv.Perm Nat} (h : Reordered ρ files files')

include h

theorem unopened (n : Nat) : Unopened files (Row.marker (generatedName n)) :=
  fun f hf _ => (h.unnumbered f hf).marker n

theorem unopened' (n : Nat) : Unopened files' (Row.marker (generatedName n)) :=
  fun f hf _ => (h.unnumbered f (h.perm.mem_iff.2 hf)).marker n

/-- **The blocks of the two loads are alike.** -/
theorem track?_renamed (n : Nat) :
    Option.Rel (Track.Renamed ρ) ((load files).track? (generatedName n))
      ((load files').track? (generatedName (ρ n))) := by
  cases hfound : (load files).track? (generatedName n) with
  | some t =>
    obtain ⟨v, hv, hname, hlines, rfl⟩ := (track?_eq_some_iff (h.unopened n)).1 hfound
    obtain ⟨v', hv', hrenamed⟩ := h.exists_renamed hv
    have hlines' : v'.ownLines ≠ [] := fun hnil => hlines (by simpa [hnil] using hrenamed.ownLines)
    have hfound' := (track?_eq_some_iff (h.unopened' (ρ n))).2
      ⟨v', hv', hrenamed.block.origin.eq_block hname, hlines', rfl⟩
    rw [hfound']
    exact .some hrenamed.ownLines
  | none =>
    cases hfound' : (load files').track? (generatedName (ρ n)) with
    | none => exact .none
    | some t' =>
      obtain ⟨v', hv', hname', hlines', rfl⟩ := (track?_eq_some_iff (h.unopened' (ρ n))).1 hfound'
      obtain ⟨v, hv, hrenamed⟩ := h.exists_renamed' hv'
      have hlines : v.ownLines ≠ [] := fun hnil => hlines' (by simpa [hnil] using hrenamed.ownLines)
      have hname := hrenamed.block.origin.eq_block' ρ.injective hname'
      rw [(track?_eq_some_iff (h.unopened n)).2 ⟨v, hv, hname, hlines, rfl⟩] at hfound
      cases hfound

end Reordered

end Library

/-! ### Macros -/

/-- The macro of a name, if the entry is one. -/
def Entry.script? (name : Text) : Entry → Option Script
  | .named own script => if own = name then some script else none
  | .block _ _ => none

theorem Entry.Renamed.script? {ρ : Nat → Nat} {e e' : Entry} (h : e.Renamed ρ e') (name : Text) :
    Option.Rel (Script.Renamed ρ) (e.script? name) (e'.script? name) := by
  cases h with
  | named own hs =>
    simp only [Entry.script?]
    split
    · exact .some hs
    · exact .none
  | block => exact .none

namespace ScriptFile

/-- The file may have something to say about the macro of a name: it declares the name, or opens a
block with its marker. -/
def Names (f : ScriptFile) (name : Text) : Prop := f.Declares name ∨ f.Opens (Row.marker name)

instance (f : ScriptFile) (name : Text) : Decidable (f.Names name) :=
  inferInstanceAs (Decidable (_ ∨ _))

/-- The macros of a name that reading the file yields, the one that counts at last. -/
def scripts (f : ScriptFile) (name : Text) (counter : Nat) : List Script :=
  ((f.visits counter).flatMap Visit.entries).filterMap (Entry.script? name)

theorem scripts_eq_nil {f : ScriptFile} {name : Text} (h : ¬ f.Names name) (counter : Nat) :
    f.scripts name counter = [] := by
  refine List.filterMap_eq_nil_iff.2 fun e he => ?_
  obtain ⟨v, hv, he⟩ := List.mem_flatMap.1 he
  cases e with
  | named own script =>
    refine if_neg ?_
    rintro rfl
    exact h (declares_or_opens hv he)
  | block own t => rfl

end ScriptFile

namespace Library

variable {files files' : List ScriptFile} {name : Text}

theorem get?_add (l : Library) (e : Entry) (name : Text) :
    (l.add e).get? name = (e.script? name).or (l.get? name) := by
  cases e with
  | named own script =>
    by_cases hname : own = name <;>
      simp [get?, add, Entry.script?, Std.TreeMap.getElem?_insert, hname]
  | block own t => rfl

/-- The macro of a name is the last one that was stored. -/
theorem get?_foldl_add_eq (entries : List Entry) (l : Library) (name : Text) :
    (entries.foldl add l).get? name =
      (entries.filterMap (Entry.script? name)).getLast?.or (l.get? name) := by
  induction entries generalizing l with
  | nil => rfl
  | cons e rest ih =>
    rw [List.foldl_cons, ih, get?_add]
    cases hscript : e.script? name with
    | none => rw [List.filterMap_cons_none hscript, Option.none_or]
    | some script =>
      rw [List.filterMap_cons_some hscript, List.getLast?_cons]
      cases (rest.filterMap (Entry.script? name)).getLast? <;> rfl

/-- The macro of a name is the last one that a load reads. -/
theorem get?_load (files : List ScriptFile) (name : Text) :
    (load files).get? name =
      (((visits files).flatMap Visit.entries).filterMap (Entry.script? name)).getLast? := by
  obtain ⟨n, hload⟩ := exists_load files
  rw [hload, get?_foldl_add_eq]
  exact Option.or_none

theorem mem_names_of_mem_entries {v : Visit} (hv : v ∈ visits files) {script : Script}
    (he : .named name script ∈ v.entries) : name ∈ (load files).names := by
  refine mem_names_iff.2 (Option.isSome_iff_exists.1 ?_)
  have hmem : script ∈
      ((visits files).flatMap Visit.entries).filterMap (Entry.script? name) :=
    List.mem_filterMap.2 ⟨_, List.mem_flatMap.2 ⟨v, hv, he⟩, if_pos rfl⟩
  rw [get?_load, List.getLast?_isSome]
  exact List.ne_nil_of_mem hmem

theorem flatMap_eq_of_filter {α β : Type} {p : α → Bool} {g : α → List β} {l : List α}
    (h : ∀ a ∈ l, p a = false → g a = []) : l.flatMap g = (l.filter p).flatMap g := by
  induction l with
  | nil => rfl
  | cons a rest ih =>
    have hrest := ih fun b hb => h b (List.mem_cons_of_mem _ hb)
    cases ha : p a with
    | true => rw [List.flatMap_cons, List.filter_cons_of_pos ha, List.flatMap_cons, hrest]
    | false =>
      rw [List.flatMap_cons, h a List.mem_cons_self ha, List.nil_append,
        List.filter_cons_of_neg (by simp [ha]), hrest]

/-- Files that come in the same order are placed in the same order. -/
theorem forall₂_placed {p : ScriptFile → Bool} (h : files.filter p = files'.filter p) :
    List.Forall₂ (fun q q' => q ∈ placed files 0 ∧ q' ∈ placed files' 0 ∧ q'.1 = q.1)
      ((placed files 0).filter fun q => p q.1) ((placed files' 0).filter fun q => p q.1) := by
  -- the files are the same one by one, and each comes from its own load
  have hmap : ∀ l : List ScriptFile,
      ((placed l 0).filter fun q => p q.1).map Prod.fst = l.filter p := by
    intro l
    calc ((placed l 0).filter fun q => p q.1).map Prod.fst
        = ((placed l 0).map Prod.fst).filter p := List.filter_map.symm
      _ = l.filter p := by rw [map_fst_placed]
  have hfst : List.Forall₂ (fun q q' => q.1 = q'.1)
      ((placed files 0).filter fun q => p q.1) ((placed files' 0).filter fun q => p q.1) := by
    refine List.forall₂_map_left_iff.1 (List.forall₂_map_right_iff.1 ?_)
    rw [hmap, hmap, h, List.forall₂_eq_eq_eq]
  have hleft : List.Forall₂
      (fun q (q' : ScriptFile × Nat) => q ∈ placed files 0 ∧ q.1 = q'.1) _ _ :=
    (List.forall₂_and_left _ _).2 ⟨fun q hq => List.mem_of_mem_filter hq, hfst⟩
  have hright : List.Forall₂
      (fun q' q => q' ∈ placed files' 0 ∧ q ∈ placed files 0 ∧ q.1 = q'.1) _ _ :=
    (List.forall₂_and_left _ _).2 ⟨fun q hq => List.mem_of_mem_filter hq, hleft.flip⟩
  exact hright.flip.imp fun q q' hq => ⟨hq.2.1, hq.1, hq.2.2.symm⟩

/-- The macro of a name is the last one that the files read that may have something to say about
it. -/
theorem get?_load_eq (hpath : ∀ f ∈ files, PadScript.isScriptPath f.path = true) (name : Text) :
    (load files).get? name = (((placed files 0).filter fun p => p.1.Names name).flatMap
      fun p => p.1.scripts name p.2).getLast? := by
  have hvisits : visits files = (placed files 0).flatMap fun p => p.1.visits p.2 := by
    rw [visits, List.filter_eq_self.2 hpath, visitsFrom_eq]
  rw [get?_load, hvisits, List.flatMap_assoc, List.filterMap_flatMap]
  refine congrArg List.getLast? (flatMap_eq_of_filter fun p _ hnames => ?_)
  exact ScriptFile.scripts_eq_nil (by simpa using hnames) p.2

theorem getLast?_rel {α β : Type} {R : α → β → Prop} {l : List α} {l' : List β}
    (h : List.Forall₂ R l l') : Option.Rel R l.getLast? l'.getLast? := by
  have hreverse := List.forall₂_reverse_iff.2 h
  rw [List.getLast?_eq_head?_reverse, List.getLast?_eq_head?_reverse]
  generalize l.reverse = back at hreverse
  generalize l'.reverse = back' at hreverse
  cases hreverse with
  | nil => exact .none
  | cons hab _ => exact .some hab

namespace Reordered

variable {ρ : Equiv.Perm Nat} (h : Reordered ρ files files')

include h

/-- **The two loads have macros of the same names.** -/
theorem mem_names_iff : name ∈ (load files).names ↔ name ∈ (load files').names := by
  constructor
  · intro hname
    obtain ⟨script, hscript⟩ := Library.mem_names_iff.1 hname
    obtain ⟨v, hv, he⟩ := exists_named hscript
    obtain ⟨v', hv', hrenamed⟩ := h.exists_renamed hv
    obtain ⟨e', he', hentry⟩ := exists_of_forall₂ hrenamed.entries he
    cases hentry
    exact mem_names_of_mem_entries hv' he'
  · intro hname
    obtain ⟨script, hscript⟩ := Library.mem_names_iff.1 hname
    obtain ⟨v', hv', he'⟩ := exists_named hscript
    obtain ⟨v, hv, hrenamed⟩ := h.exists_renamed' hv'
    obtain ⟨e, he, hentry⟩ := exists_of_forall₂ hrenamed.entries.flip he'
    cases hentry
    exact mem_names_of_mem_entries hv he

/-- The macros that a file yields in the two loads are alike. -/
theorem scripts_renamed {f : ScriptFile} {m m' : Nat} (hm : (f, m) ∈ placed files 0)
    (hm' : (f, m') ∈ placed files' 0) (name : Text) :
    List.Forall₂ (Script.Renamed ρ) (f.scripts name m) (f.scripts name m') := by
  have hentries : List.Forall₂ (Entry.Renamed ρ) ((f.visits m).flatMap Visit.entries)
      ((f.visits m').flatMap Visit.entries) :=
    List.rel_flatMap (h.renamed_visits hm hm') fun _ _ hv => hv.entries
  exact List.rel_filterMap (fun _ _ he => he.script? name) hentries

/-- **A macro is alike in the two loads if the files that may have something to say about it come in
the same order.** -/
theorem get?_renamed (hsame : files.filter (·.Names name) = files'.filter (·.Names name)) :
    Option.Rel (Script.Renamed ρ) ((load files).get? name) ((load files').get? name) := by
  have hpath' : ∀ f ∈ files', PadScript.isScriptPath f.path = true :=
    fun f hf => h.isScriptPath f (h.perm.mem_iff.2 hf)
  rw [get?_load_eq h.isScriptPath, get?_load_eq hpath']
  refine getLast?_rel (List.rel_flatMap (forall₂_placed hsame) ?_)
  rintro ⟨f, m⟩ ⟨f', m'⟩ ⟨hm, hm', rfl⟩
  exact h.scripts_renamed hm hm' name

end Reordered

end Library

end PadScript
