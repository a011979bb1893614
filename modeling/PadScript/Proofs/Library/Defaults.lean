import PadScript.Proofs.Library.Names
import PadScript.Proofs.Library.Overrides
import PadScript.Script.Cursor.Lines

/-!
# Defaults that files declare

A macro declares a default in a row of its segment that stands outside its blocks. This file
compares a file with the same file without such a row, whose value the caller gives as an override
instead.

* `Reading.plain_addRow` : reading a row does not look at the defaults that there are.
* `Reading.Leaves.getElem?_defaults` : a default stays until it is declared again.
* `Library.alike_load_leftOut` : without the row, all macros and blocks have the same lines.
* `Library.override_eq_default` : **the value of an override is that of the default if and only if
  the text does not stand between quotes.**
-/

namespace PadScript

/-! ### Reading without defaults -/

/-- What was read, without its defaults. -/
def Entry.plain : Entry → Entry
  | .named name script => .named name ⟨script.track, ∅⟩
  | .block name t => .block name t

theorem Entry.plain_plain (e : Entry) : e.plain.plain = e.plain := by
  cases e <;> rfl

theorem Origin.plain_entry (o : Origin) (name : Text) (script : Script) :
    (o.entry name script).plain = o.entry name ⟨script.track, ∅⟩ := by
  cases o with
  | file tag => rfl
  | block own =>
    simp only [entry]
    split <;> rfl

namespace Reading

variable {o : Origin} {r s : Reading} {row : Text}

/-- The reading without any defaults. -/
def plain (r : Reading) : Reading :=
  { r with defaults := ∅, entries := r.entries.map Entry.plain }

theorem plain_plain (r : Reading) : r.plain.plain = r.plain := by
  simp [plain, Entry.plain_plain]

theorem plain_endSegment (o : Origin) (r : Reading) :
    (r.endSegment o).plain = r.plain.endSegment o := by
  simp only [endSegment, plain]
  cases r.name? with
  | none => rfl
  | some name => by_cases hlines : r.lines.isEmpty <;> simp [hlines, Origin.plain_entry]

theorem plain_mark (o : Origin) (name : Text) (r : Reading) :
    (r.mark o name).plain = r.plain.mark o name := by
  simp only [mark, ← plain_endSegment]
  rfl

theorem plain_closeBlock (rows : List Text) (suffix : Text) (r : Reading) :
    (r.closeBlock rows suffix).plain = r.plain.closeBlock rows suffix := by
  simp only [closeBlock]
  split <;> rfl

theorem plain_addToBlock (b : OpenBlock) (part : Text) (r : Reading) :
    (r.addToBlock b part).plain = r.plain.addToBlock b part := by
  simp only [addToBlock]
  split
  · exact plain_closeBlock ..
  · rfl

theorem plain_addLine (o : Origin) (row : Text) (r : Reading) :
    (r.addLine o row).plain = (r.plain.addLine o row).plain := by
  simp only [addLine]
  split
  · split <;> exact (plain_plain r).symm
  · simp [plain, Entry.plain_plain]

/-- **Reading a row does not look at the defaults that there are.** -/
theorem plain_addRow (o : Origin) (r : Reading) (row : Text) :
    (r.addRow o row).plain = (r.plain.addRow o row).plain := by
  have hblock : r.plain.block? = r.block? := rfl
  simp only [addRow, hblock]
  split
  · rw [plain_mark, plain_mark, plain_plain]
  · rw [plain_addToBlock, plain_addToBlock, plain_plain]
  · rw [plain_addToBlock, plain_addToBlock, plain_plain]
  · exact plain_addLine o row r

theorem plain_foldl_congr (h : r.plain = s.plain) (rows : List Text) :
    (rows.foldl (addRow o) r).plain = (rows.foldl (addRow o) s).plain := by
  induction rows generalizing r s with
  | nil => exact h
  | cons row rest ih =>
    refine ih ?_
    rw [plain_addRow, h, ← plain_addRow]

section Declaring

variable {key value : Text}

/-- A row that declares a default, outside any block. -/
theorem addRow_declaring (hblock : r.block? = none) (hkey : key ≠ []) (hequal : '=' ∉ key)
    (hdeclares : o.declares = true) :
    r.addRow o (Row.declaring key value) =
      { r with defaults := r.defaults.insert key (Row.declaredValue value) } := by
  have hopens : Text.after? ['{'] (Row.declaring key value) = none := rfl
  have hmarked : Row.marked? (Row.declaring key value) = none := rfl
  simp [addRow, hmarked, hblock, hopens, addLine, Row.declaration?_declaring hkey hequal, hdeclares]

/-- None of the rows opens a segment, or declares the default outside a block. -/
def Leaves (o : Origin) (key : Text) : Reading → List Text → Prop
  | _, [] => True
  | r, row :: rest =>
    Row.marked? row = none ∧
      (r.block? = none → (Row.declaration? row).map Prod.fst ≠ some key) ∧
      (r.addRow o row).Leaves o key rest

instance decidableLeaves (o : Origin) (key : Text) :
    (r : Reading) → (rows : List Text) → Decidable (r.Leaves o key rows)
  | _, [] => .isTrue trivial
  | r, row :: rest =>
    have := decidableLeaves o key (r.addRow o row) rest
    inferInstanceAs (Decidable (_ ∧ _ ∧ _))

theorem defaults_closeBlock (rows : List Text) (suffix : Text) (r : Reading) :
    (r.closeBlock rows suffix).defaults = r.defaults := by
  simp only [closeBlock]
  split <;> rfl

theorem defaults_addToBlock (b : OpenBlock) (part : Text) (r : Reading) :
    (r.addToBlock b part).defaults = r.defaults := by
  simp only [addToBlock]
  split
  · exact defaults_closeBlock ..
  · rfl

theorem getElem?_defaults_addRow (hmarked : Row.marked? row = none)
    (hother : r.block? = none → (Row.declaration? row).map Prod.fst ≠ some key) :
    (r.addRow o row).defaults[key]? = r.defaults[key]? := by
  unfold addRow
  split
  next hmark => simp [hmarked] at hmark
  next => rw [defaults_addToBlock]
  next => rw [defaults_addToBlock]
  next hblock _ =>
    unfold addLine
    split
    next name value hdeclared =>
      have hne : name ≠ key := by
        rintro rfl
        exact hother hblock (by rw [hdeclared]; rfl)
      split
      · simp [Std.TreeMap.getElem?_insert, hne]
      · rfl
    next => rfl

/-- **A default stays until it is declared again.** -/
theorem Leaves.getElem?_defaults {rows : List Text} (h : r.Leaves o key rows) :
    (rows.foldl (addRow o) r).defaults[key]? = r.defaults[key]? := by
  induction rows generalizing r with
  | nil => rfl
  | cons row rest ih =>
    obtain ⟨hmarked, hother, hrest⟩ := h
    exact (ih hrest).trans (getElem?_defaults_addRow hmarked hother)

end Declaring

end Reading

/-! ### Libraries with the same lines -/

namespace Library

/-- The libraries have the same macros and blocks but for defaults, and go on with one number. -/
structure Alike (l l' : Library) : Prop where
  /-- The macros have the same lines. -/
  macros : ∀ name, (l'.get? name).map Script.track = (l.get? name).map Script.track
  /-- The blocks are the same. -/
  blocks : ∀ name : Text, l'.blocks[name]? = l.blocks[name]?
  /-- The number of the next block is the same. -/
  counter : l'.counter = l.counter

variable {l l' : Library}

theorem Alike.refl (l : Library) : l.Alike l := ⟨fun _ => rfl, fun _ => rfl, rfl⟩

/-- A label leads to the same track. -/
theorem Alike.track?_eq (h : l.Alike l') (label : Text) : l'.track? label = l.track? label := by
  have hmacros := h.macros label
  simp only [get?] at hmacros
  unfold track?
  cases hnamed : l.named[label]? with
  | none =>
    rw [hnamed, Option.map_none, Option.map_eq_none_iff] at hmacros
    rw [hmacros]
    exact h.blocks label
  | some script =>
    rw [hnamed, Option.map_some] at hmacros
    obtain ⟨script', hnamed', htrack⟩ := Option.map_eq_some_iff.1 hmacros
    rw [hnamed']
    exact congrArg some htrack

theorem Alike.add (h : l.Alike l') {e e' : Entry} (he : e'.plain = e.plain) :
    (l.add e).Alike (l'.add e') := by
  cases e with
  | named name script =>
    cases e' with
    | block => cases he
    | named name' script' =>
      obtain ⟨rfl, hscript⟩ := Entry.named.inj he
      refine ⟨fun other => ?_, h.blocks, h.counter⟩
      have hmacros := h.macros other
      simp only [get?] at hmacros
      simp only [get?, Library.add, Std.TreeMap.getElem?_insert]
      split
      · exact congrArg some (Script.mk.inj hscript).1
      · exact hmacros
  | block name t =>
    cases e' with
    | named => cases he
    | block name' t' =>
      obtain ⟨rfl, rfl⟩ := Entry.block.inj he
      refine ⟨h.macros, fun other => ?_, h.counter⟩
      simp only [Library.add, Std.TreeMap.getElem?_insert, h.blocks other]

theorem Alike.foldl_add (h : l.Alike l') {entries entries' : List Entry}
    (hentries : entries'.map Entry.plain = entries.map Entry.plain) :
    (entries.foldl Library.add l).Alike (entries'.foldl Library.add l') := by
  induction entries generalizing entries' l l' with
  | nil =>
    rw [List.map_nil, List.map_eq_nil_iff] at hentries
    subst hentries
    exact h
  | cons e rest ih =>
    obtain ⟨e', rest', rfl, he, hrest⟩ := List.map_eq_cons_iff.1 hentries
    exact ih (h.add he) hrest

theorem Alike.addFile (h : l.Alike l') (f : ScriptFile) : (l.addFile f).Alike (l'.addFile f) := by
  have hnumbered : ∀ n, Alike { l with counter := n } { l' with counter := n } :=
    fun _ => ⟨h.macros, h.blocks, rfl⟩
  rw [addFile_eq, addFile_eq, h.counter]
  exact (hnumbered _).foldl_add rfl

theorem Alike.foldl_addFile (h : l.Alike l') (files : List ScriptFile) :
    (files.foldl Library.addFile l).Alike (files.foldl Library.addFile l') := by
  induction files generalizing l l' with
  | nil => exact h
  | cons f rest ih => exact ih (h.addFile f)

end Library

/-! ### A row that declares a default -/

/-- The state after rows. -/
def Visit.readingOf (v : Visit) (rows : List Text) : Reading :=
  rows.foldl (Reading.addRow v.block.origin) v.start

/-- The rows that count among those that are written in a file, with the tag of its path on their
jumps. -/
def ScriptFile.readRows (path : Text) (written : List Text) : List Text :=
  (written.filterMap Row.clean?).map (Row.qualify (tagOf path))

/-- A row of a file that declares a default for the macro of a segment: it stands outside the blocks
of the segment, and no later row of the segment declares the default again. The blocks of the file
are counted from a number on. -/
structure Declaration (f : ScriptFile) (counter : Nat) (name key value : Text) where
  /-- The row as it is written. -/
  written : Text
  /-- The rows before it. -/
  front : List Text
  /-- The rows behind it. -/
  back : List Text
  /-- The rows behind it that are read for the same segment. -/
  within : List Text
  /-- The rows behind the segment. -/
  behind : List Text
  /-- The default has a name. -/
  key_ne_nil : key ≠ []
  /-- The first equals sign is the one behind the name. -/
  equal_not_mem : '=' ∉ key
  /-- There is a value. -/
  value_ne_nil : value ≠ []
  /-- The row stands between the others. -/
  rows : Text.rows f.text = front ++ written :: back
  /-- It is read as the row of the default. -/
  clean : Row.clean? written = some (Row.declaring key value)
  /-- The rows behind it are those of the segment and those behind the segment. -/
  parts : ScriptFile.readRows f.path back = within ++ behind
  /-- It stands in the segment of the name. -/
  named : (Visit.readingOf ⟨f.block, counter⟩ (ScriptFile.readRows f.path front)).name? = some name
  /-- It stands outside any block. -/
  outside : (Visit.readingOf ⟨f.block, counter⟩ (ScriptFile.readRows f.path front)).block? = none
  /-- The default is not declared again. -/
  leaves : Reading.Leaves f.block.origin key (Visit.readingOf ⟨f.block, counter⟩
    (ScriptFile.readRows f.path front ++ [Row.declaring key value])) within

namespace Declaration

variable {f g : ScriptFile} {counter : Nat} {name key value : Text}

/-- The macro of the segment. -/
def script (d : Declaration f counter name key value) : Script :=
  let r := Visit.readingOf ⟨f.block, counter⟩
    (ScriptFile.readRows f.path d.front ++ Row.declaring key value :: d.within)
  ⟨⟨r.lines⟩, r.defaults⟩

/-- The other file has the same path and the same rows but for this one. -/
structure LeftOut (d : Declaration f counter name key value) (g : ScriptFile) : Prop where
  /-- The path is the same. -/
  path : g.path = f.path
  /-- So are the other rows. -/
  rows : Text.rows g.text = d.front ++ d.back

variable (d : Declaration f counter name key value)

theorem qualify_declaring (tag key value : Text) :
    Row.qualify tag (Row.declaring key value) = Row.declaring key value :=
  Row.qualify_eq_self (by rw [Row.head?_declaring]; decide) tag

theorem rowsOf_eq : Library.rowsOf f =
    ScriptFile.readRows f.path d.front ++
      Row.declaring key value :: ScriptFile.readRows f.path d.back := by
  simp [Library.rowsOf, ScriptFile.readRows, d.rows, d.clean, qualify_declaring]

theorem LeftOut.rowsOf_eq (h : d.LeftOut g) : Library.rowsOf g =
    ScriptFile.readRows f.path d.front ++ ScriptFile.readRows f.path d.back := by
  simp [Library.rowsOf, ScriptFile.readRows, h.rows, h.path]

theorem readingOf_declaring :
    Visit.readingOf ⟨f.block, counter⟩
        (ScriptFile.readRows f.path d.front ++ [Row.declaring key value]) =
      let r := Visit.readingOf ⟨f.block, counter⟩ (ScriptFile.readRows f.path d.front)
      { r with defaults := r.defaults.insert key (Row.declaredValue value) } := by
  rw [Visit.readingOf, List.foldl_append, List.foldl_cons, List.foldl_nil]
  exact Reading.addRow_declaring d.outside d.key_ne_nil d.equal_not_mem rfl

/-- **The macro of the segment has the default.** -/
theorem getElem?_script : d.script.defaults[key]? = some (Row.declaredValue value) := by
  have hrows : ScriptFile.readRows f.path d.front ++ Row.declaring key value :: d.within =
      (ScriptFile.readRows f.path d.front ++ [Row.declaring key value]) ++ d.within := by simp
  have hleaves := d.leaves.getElem?_defaults
  rw [d.readingOf_declaring, Std.TreeMap.getElem?_insert_self] at hleaves
  rw [script, hrows, Visit.readingOf, List.foldl_append, ← Visit.readingOf, d.readingOf_declaring]
  exact hleaves

/-- The readings of both files differ in defaults only. -/
theorem LeftOut.plain_reading {d : Declaration f counter name key value} (h : d.LeftOut g) :
    (Visit.reading ⟨g.block, counter⟩).plain = (Visit.reading ⟨f.block, counter⟩).plain := by
  have horigin : g.block.origin = f.block.origin := congrArg (Origin.file <| tagOf ·) h.path
  have hrows : ∀ v : Visit, v.reading = (v.readingOf v.block.rows).endSegment v.block.origin :=
    fun _ => rfl
  have hgrows : g.block.rows = _ := h.rowsOf_eq
  have hfrows : f.block.rows = _ := d.rowsOf_eq
  rw [hrows, hrows, Reading.plain_endSegment, Reading.plain_endSegment, hgrows, hfrows,
    Visit.readingOf, Visit.readingOf, Visit.start, Visit.start, horigin,
    List.foldl_append, List.foldl_append, List.foldl_cons]
  -- from the row on the states differ in the default only
  have hrow := d.readingOf_declaring
  rw [Visit.readingOf, List.foldl_append, List.foldl_cons, List.foldl_nil] at hrow
  refine congrArg (Reading.endSegment _) (Reading.plain_foldl_congr ?_ _)
  exact (congrArg Reading.plain hrow.symm :)

end Declaration

namespace Library

variable {f g : ScriptFile} {name key value : Text}

/-- Files whose readings differ in defaults only leave libraries alike. -/
theorem alike_addFile (l : Library)
    (h : (Visit.reading ⟨g.block, l.counter⟩).plain = (Visit.reading ⟨f.block, l.counter⟩).plain) :
    (l.addFile f).Alike (l.addFile g) := by
  have hentries : (Visit.entries ⟨g.block, l.counter⟩).map Entry.plain =
      (Visit.entries ⟨f.block, l.counter⟩).map Entry.plain :=
    (congrArg Reading.entries h :)
  have hpending : Visit.pending ⟨g.block, l.counter⟩ = Visit.pending ⟨f.block, l.counter⟩ :=
    (congrArg Reading.pending h :)
  have hnext : Visit.next ⟨g.block, l.counter⟩ = Visit.next ⟨f.block, l.counter⟩ :=
    (congrArg Reading.counter h :)
  rw [addFile_eq, addFile_eq, ScriptFile.visits, ScriptFile.visits, Block.visits_cons,
    Block.visits_cons, Block.last_cons, Block.last_cons, hpending, hnext]
  refine (Alike.refl _).foldl_add ?_
  rw [List.flatMap_cons, List.flatMap_cons, List.map_append, List.map_append, hentries]

theorem load_append_cons {f : ScriptFile} (hpath : isScriptPath f.path = true)
    (earlier later : List ScriptFile) :
    load (earlier ++ f :: later) =
      (later.filter fun g => isScriptPath g.path).foldl addFile ((load earlier).addFile f) := by
  simp [load, List.filter_append, hpath]

/-- **Without the row, all macros and blocks have the same lines.** -/
theorem alike_load_leftOut {earlier later : List ScriptFile}
    {d : Declaration f (load earlier).counter name key value} (hpath : isScriptPath f.path = true)
    (h : d.LeftOut g) : (load (earlier ++ f :: later)).Alike (load (earlier ++ g :: later)) := by
  rw [load_append_cons hpath, load_append_cons (h.path ▸ hpath)]
  exact (alike_addFile _ h.plain_reading).foldl_addFile _

/-- **Overrides are read like defaults but for quotes.** A load in which a row declares a default
for a macro is compared with the same load without that row. All macros and blocks have the same
lines. The macro starts with the value that the row declares in the first one, and with what its
text means as plain text when the text is given as an override in the second one; these are the same
if and only if the text does not stand between quotes. And whatever the defaults and the overrides
are, a parameter has the value of its override, unless that is null or empty, and else its
default. -/
theorem override_eq_default (earlier later : List ScriptFile)
    (d : Declaration f (load earlier).counter name key value) (hpath : isScriptPath f.path = true)
    (hout : d.LeftOut g) (hscript : (load (earlier ++ f :: later)).get? name = some d.script) :
    (∀ label, (load (earlier ++ g :: later)).track? label =
      (load (earlier ++ f :: later)).track? label) ∧
    (∃ c c', Cursor.start? (load (earlier ++ f :: later)) name [] = some c ∧
      Cursor.start? (load (earlier ++ g :: later)) name [(key, .str value)] = some c' ∧
      c'.head = c.head ∧ c.params.get? key = some (Row.declaredValue value) ∧
      c'.params.get? key = some (.ofLiteral value) ∧
      (c'.params.get? key = c.params.get? key ↔ ¬ Row.IsQuoted value)) ∧
    ∀ (defaults : Bindings) (overrides : Overrides), (overrides.map Prod.fst).Nodup →
      ∀ key, (Params.ofOverrides defaults overrides).get? key =
        match overrides.get? key with
        | none => defaults[key]?
        | some j => if Params.leavesDefault j then defaults[key]? else Params.ofOverride? j := by
  have halike : (load (earlier ++ f :: later)).Alike (load (earlier ++ g :: later)) :=
    alike_load_leftOut hpath hout
  obtain ⟨script', hscript', htrack⟩ : ∃ script', (load (earlier ++ g :: later)).get? name =
      some script' ∧ script'.track = d.script.track := by
    have hmacros := halike.macros name
    rw [hscript, Option.map_some] at hmacros
    exact Option.map_eq_some_iff.1 hmacros
  have hdefault : (Params.ofOverrides d.script.defaults []).get? key =
      some (Row.declaredValue value) := d.getElem?_script
  have hoverride : (Params.ofOverrides script'.defaults [(key, .str value)]).get? key =
      some (.ofLiteral value) := by
    have hvalue : Params.leavesDefault (.str value) = false := by
      cases value with
      | nil => exact absurd rfl d.value_ne_nil
      | cons c rest => rfl
    rw [Params.get?_ofOverrides (by simp), Members.get?, if_pos rfl]
    simp [hvalue, Params.ofOverride?]
  refine ⟨halike.track?_eq, ⟨_, _, congrArg (Option.map _) hscript,
    congrArg (Option.map _) hscript', congrArg (Track.headOf .root) htrack, hdefault, hoverride, ?_⟩,
    fun defaults overrides h key => Params.get?_ofOverrides h defaults key⟩
  change (Params.ofOverrides script'.defaults [(key, .str value)]).get? key =
    (Params.ofOverrides d.script.defaults []).get? key ↔ _
  rw [hoverride, hdefault, ← Row.declaredValue_eq_iff, Option.some_inj, eq_comm]

/-- A file with a jump that depends on a parameter, and with its default in quotes. -/
def quotedDefault : ScriptFile :=
  ⟨"f.m".toList, "<x>\nDEFAULT>mode='fast'\n[b]?mode=='fast'\nA\n<b>\nB\n".toList⟩

/-- The same file without the default. -/
def noDefault : ScriptFile := ⟨"f.m".toList, "<x>\n[b]?mode=='fast'\nA\n<b>\nB\n".toList⟩

/-- The row of the default. -/
def quotedDeclaration : Declaration quotedDefault (load []).counter "f.x".toList "mode".toList
    "'fast'".toList where
  written := Row.declaring "mode".toList "'fast'".toList
  front := ["<x>".toList]
  back := ["[b]?mode=='fast'".toList, "A".toList, "<b>".toList, "B".toList, []]
  within := ["[f.b]?mode=='fast'".toList, "A".toList]
  behind := ["<b>".toList, "B".toList]
  key_ne_nil := by decide
  equal_not_mem := by decide
  value_ne_nil := by decide
  rows := by decide +kernel
  clean := Row.clean?_declaring (by decide) (by decide)
  parts := by decide +kernel
  named := by decide +kernel
  outside := by decide +kernel
  leaves := by decide +kernel

theorem get?_quotedDefault :
    (load [quotedDefault]).get? "f.x".toList = some quotedDeclaration.script := by
  have hentries : Visit.entries ⟨quotedDefault.block, 0⟩ =
      [.named "f.x".toList quotedDeclaration.script,
        .named "f.b".toList ⟨⟨["B".toList]⟩, ∅⟩] := rfl
  have hpending : Visit.pending ⟨quotedDefault.block, 0⟩ = [] := rfl
  have hload : load [quotedDefault] = empty.addFile quotedDefault := rfl
  have hcounter : empty.counter = 0 := rfl
  rw [hload, addFile_eq, hcounter, ScriptFile.visits, Block.visits_cons, hpending,
    List.append_nil, Block.visits_nil, List.flatMap_cons, List.flatMap_nil, List.append_nil,
    hentries]
  simp only [List.foldl_cons, List.foldl_nil, add, get?, Std.TreeMap.getElem?_insert]
  rfl

/-- The macro `x` of the file, with its default and with the text of the default as an override. -/
theorem override_eq_default_quoted :
    isScriptPath quotedDefault.path = true ∧ quotedDeclaration.LeftOut noDefault ∧
      (load [quotedDefault]).get? "f.x".toList = some quotedDeclaration.script ∧
      (∃ c c', Cursor.start? (load [quotedDefault]) "f.x".toList [] = some c ∧
        Cursor.start? (load [noDefault]) "f.x".toList [("mode".toList, .str "'fast'".toList)] =
          some c' ∧ c'.head = c.head ∧
        (c'.params.get? "mode".toList = c.params.get? "mode".toList ↔
          ¬ Row.IsQuoted "'fast'".toList)) ∧
      ["n".toList].Nodup ∧
        (Params.ofOverrides ∅ [("n".toList, .str "on".toList)]).get? "n".toList =
          some (.ofLiteral "on".toList) := by
  have hpath : isScriptPath quotedDefault.path = true := by decide
  have hout : quotedDeclaration.LeftOut noDefault := ⟨rfl, by decide +kernel⟩
  have hnodup : ["n".toList].Nodup := by decide
  obtain ⟨-, ⟨c, c', hc, hc', hhead, -, -, hsame⟩, hlaid⟩ :=
    override_eq_default [] [] quotedDeclaration hpath hout get?_quotedDefault
  exact ⟨hpath, hout, get?_quotedDefault, ⟨c, c', hc, hc', hhead, hsame⟩, hnodup,
    hlaid ∅ [("n".toList, .str "on".toList)] hnodup "n".toList⟩

/-- **Quotes belong to an override**: a macro whose default is `'fast'` takes its jump, and without
the default but with this text as an override it does not. -/
theorem exists_override_ne_default :
    isScriptPath quotedDefault.path = true ∧ quotedDeclaration.LeftOut noDefault ∧
      (Cursor.start? (load [quotedDefault]) "f.x".toList []).map (fun c => (c.drain 8).1) =
        some ["B".toList, "A".toList] ∧
      (Cursor.start? (load [noDefault]) "f.x".toList
          [("mode".toList, .str "'fast'".toList)]).map (fun c => (c.drain 8).1) =
        some ["A".toList] :=
  ⟨by decide, ⟨rfl, by decide +kernel⟩, by decide +kernel, by decide +kernel⟩

end Library

end PadScript
