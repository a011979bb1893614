import PadScript.Pad.Report

/-!
# What the reports tell apart

The two reports show the same states in layouts that have nothing in common: one splits the buttons
into bytes and turns the directions into the position of a hat switch, the other looks the buttons up
in tables, has a bit for each direction and scales the sticks to twelve bits. This file shows that
neither loses more than the other.

* `ProBlock.byteOf_eq_iff` : a byte made from a table tells the buttons of the table.
* `ProBlock.unpackPair_packPair` : **two numbers of twelve bits are found again in three bytes.**
* `ProBlock.scale_inj` : **scaling keeps all offsets apart**, at the end of the range too.
* `PadState.reports_tell_apart` : two states have the same report of either kind if and only if they
  look alike.
-/

namespace PadScript

/-! ### Directions -/

namespace Dpad

/-- One set of directions for each position of the cross. -/
def places : List Dpad :=
  [center, up, up.union right, right, down.union right, down, down.union left, left, up.union left]

/-- Every set of directions comes to one of these on the axes. -/
theorem exists_place (d : Dpad) : ∃ p ∈ places, d.axes = p.axes := by
  simp only [axes]
  cases d.contains down <;> cases d.contains up <;> cases d.contains right <;>
    cases d.contains left <;> decide

/-- What depends on the axes tells them if it tells those of the places. -/
theorem axes_eq_iff_of_places {α : Type} {f : Dpad → α} (hf : ∀ d e, d.axes = e.axes → f d = f e)
    (hplaces : ∀ p ∈ places, ∀ q ∈ places, f p = f q → p.axes = q.axes) (d e : Dpad) :
    f d = f e ↔ d.axes = e.axes := by
  obtain ⟨p, hp, hdp⟩ := exists_place d
  obtain ⟨q, hq, heq⟩ := exists_place e
  refine ⟨fun h => ?_, hf d e⟩
  rw [hdp, heq]
  exact hplaces p hp q hq (by rw [← hf d p hdp, h, hf e q heq])

theorem hat_eq_iff (d e : Dpad) : d.hat = e.hat ↔ d.axes = e.axes :=
  axes_eq_iff_of_places (fun d e h => by rw [hat, hat, h]) (by decide) d e

theorem dpadBits_eq_iff (d e : Dpad) : ProBlock.dpadBits d = ProBlock.dpadBits e ↔ d.axes = e.axes :=
  axes_eq_iff_of_places (fun d e h => by rw [ProBlock.dpadBits, ProBlock.dpadBits, h]) (by decide) d e

end Dpad

/-! ### Buttons -/

namespace Buttons

/-- The bits of a set that stand for buttons. -/
def lowBits (s : Buttons) : UInt16 := s.raw &&& 0x3FFF

/-- A button is pressed if its bit is set. -/
theorem contains_eq_testBit (s : Buttons) {b : Buttons} {k : Nat} (h : b.raw.toNat = 1 <<< k) :
    s.contains b = s.raw.toNat.testBit k := by
  rw [Nat.one_shiftLeft] at h
  rw [Bool.eq_iff_iff, contains, beq_iff_eq, ← UInt16.toNat_inj, UInt16.toNat_and, h]
  constructor
  · intro hand
    have hbit := congrArg (Nat.testBit · k) hand
    simpa using hbit
  · intro hbit
    refine Nat.eq_of_testBit_eq fun i => ?_
    rw [Nat.testBit_and, Nat.testBit_two_pow]
    by_cases hi : k = i
    · subst hi
      simp [hbit]
    · simp [hi]

theorem toNat_lowBits (s : Buttons) : s.lowBits.toNat = s.raw.toNat % 16384 :=
  (UInt16.toNat_and ..).trans (Nat.and_two_pow_sub_one_eq_mod s.raw.toNat 14)

/-- Two sets have the same bits for buttons if and only if they have the same buttons. -/
theorem lowBits_eq_iff (s t : Buttons) :
    s.lowBits = t.lowBits ↔ ∀ k < 14, s.raw.toNat.testBit k = t.raw.toNat.testBit k := by
  have hbit : ∀ (u : Buttons) (k : Nat),
      u.lowBits.toNat.testBit k = (decide (k < 14) && u.raw.toNat.testBit k) := fun u k => by
    rw [toNat_lowBits]
    exact Nat.testBit_mod_two_pow u.raw.toNat 14 k
  constructor
  · intro h k hk
    have hsame := hbit s k
    rw [h, hbit t k] at hsame
    simpa [hk] using hsame.symm
  · intro h
    rw [← UInt16.toNat_inj]
    refine Nat.eq_of_testBit_eq fun k => ?_
    rw [hbit, hbit]
    by_cases hk : k < 14
    · rw [h k hk]
    · simp [hk]

end Buttons

/-- An offset has eight bits. -/
theorem toInt_bounds (v : Int8) : -128 ≤ v.toInt ∧ v.toInt < 128 := ⟨v.le_toInt, v.toInt_lt⟩

namespace ProBlock

theorem testBit_foldl (s : Buttons) (table : List (Buttons × UInt8)) (start : UInt8) (k : Nat) :
    (table.foldl (fun byte (button, bit) => if s.contains button then byte ||| bit else byte)
      start).toNat.testBit k =
      (start.toNat.testBit k || table.any fun e => s.contains e.1 && e.2.toNat.testBit k) := by
  induction table generalizing start with
  | nil => simp
  | cons e rest ih =>
    obtain ⟨button, bit⟩ := e
    rw [List.foldl_cons, ih, List.any_cons]
    cases hheld : s.contains button <;> simp [hheld, Bool.or_assoc]

theorem testBit_byteOf (s : Buttons) (table : List (Buttons × UInt8)) (k : Nat) :
    (byteOf s table).toNat.testBit k = table.any fun e => s.contains e.1 && e.2.toNat.testBit k := by
  rw [byteOf, testBit_foldl]
  simp

/-- Each button has a bit that no other one has. -/
def HasOwnBits (table : List (Buttons × UInt8)) : Prop :=
  ∀ e ∈ table, ∃ k < 8, e.2.toNat.testBit k = true ∧
    ∀ e' ∈ table, e'.2.toNat.testBit k = true → e'.1 = e.1

instance (table : List (Buttons × UInt8)) : Decidable (HasOwnBits table) :=
  inferInstanceAs (Decidable (∀ e ∈ table, ∃ k < 8, e.2.toNat.testBit k = true ∧
    ∀ e' ∈ table, e'.2.toNat.testBit k = true → e'.1 = e.1))

/-- A byte made from a table tells the buttons of the table. -/
theorem byteOf_eq_iff {table : List (Buttons × UInt8)} (h : HasOwnBits table) (s t : Buttons) :
    byteOf s table = byteOf t table ↔ ∀ e ∈ table, s.contains e.1 = t.contains e.1 := by
  -- the bit that only the button of an entry has tells whether it is held
  have hown : ∀ e ∈ table, ∃ k, ∀ u : Buttons,
      (byteOf u table).toNat.testBit k = u.contains e.1 := by
    intro e he
    obtain ⟨k, -, hbit, honly⟩ := h e he
    refine ⟨k, fun u => ?_⟩
    rw [testBit_byteOf, Bool.eq_iff_iff, List.any_eq_true]
    constructor
    · rintro ⟨e', he', hheld⟩
      rw [Bool.and_eq_true] at hheld
      rw [← honly e' he' hheld.2]
      exact hheld.1
    · intro hheld
      exact ⟨e, he, by rw [hheld, hbit]; rfl⟩
  constructor
  · intro hbyte e he
    obtain ⟨k, hk⟩ := hown e he
    rw [← hk s, ← hk t, hbyte]
  · intro hheld
    rw [← UInt8.toNat_inj]
    refine Nat.eq_of_testBit_eq fun k => ?_
    rw [testBit_byteOf, testBit_byteOf, Bool.eq_iff_iff, List.any_eq_true, List.any_eq_true]
    exact exists_congr fun e => and_congr_right fun he => by rw [hheld e he]

/-- The numbers that three bytes hold. -/
def unpackPair : List UInt8 → Option (UInt16 × UInt16)
  | [first, shared, last] =>
    some (first.toUInt16 ||| (shared &&& 0x0F).toUInt16 <<< 8,
      (shared >>> 4).toUInt16 ||| last.toUInt16 <<< 4)
  | _ => none

/-- Two numbers in one word do not get into each other's way. -/
theorem toNat_or_shiftLeft {a b k : UInt16} {m : Nat} (hk : k.toNat < 16)
    (hm : 1 <<< k.toNat = m) (ha : a.toNat < m) (hb : b.toNat * m < 65536) :
    (a ||| b <<< k).toNat = b.toNat * m + a.toNat := by
  subst hm
  rw [Nat.one_shiftLeft] at ha hb ⊢
  rw [← Nat.shiftLeft_eq] at hb ⊢
  rw [UInt16.toNat_or, UInt16.toNat_shiftLeft, Nat.mod_eq_of_lt hk, Nat.mod_eq_of_lt hb, Nat.or_comm,
    Nat.shiftLeft_add_eq_or_of_lt ha]

theorem toNat_and_15 (a : UInt16) : (a &&& 0x0F).toNat = a.toNat % 16 :=
  (UInt16.toNat_and ..).trans (Nat.and_two_pow_sub_one_eq_mod a.toNat 4)

/-- The byte that two numbers share holds the highest bits of one and the lowest of the other. -/
theorem toNat_shared {x : UInt16} (hx : x.toNat < 4096) (y : UInt16) :
    ((x >>> 8 &&& (0x0F : UInt16)) ||| (y &&& (0x0F : UInt16)) <<< 4).toUInt8.toNat =
      y.toNat % 16 * 16 + x.toNat / 256 := by
  have hshift : (x >>> 8).toNat = x.toNat / 256 :=
    (UInt16.toNat_shiftRight x 8).trans (Nat.shiftRight_eq_div_pow ..)
  have hhigh : (x >>> 8 &&& (0x0F : UInt16)).toNat = x.toNat / 256 := by
    rw [toNat_and_15, hshift]
    omega
  have hlow := toNat_and_15 y
  rw [UInt16.toNat_toUInt8, toNat_or_shiftLeft (by decide) (m := 16) rfl (by omega) (by omega),
    hhigh, hlow]
  omega

/-- **Two numbers of twelve bits are found again in three bytes.** -/
theorem unpackPair_packPair {x y : UInt16} (hx : x < 4096) (hy : y < 4096) :
    unpackPair (packPair x y) = some (x, y) := by
  have hx' : x.toNat < 4096 := UInt16.lt_iff_toNat_lt.1 hx
  have hy' : y.toNat < 4096 := UInt16.lt_iff_toNat_lt.1 hy
  have hshared := toNat_shared hx' y
  simp only [packPair, unpackPair, Option.some.injEq, Prod.mk.injEq]
  generalize ((x >>> 8 &&& (0x0F : UInt16)) ||| (y &&& (0x0F : UInt16)) <<< 4).toUInt8 = shared at *
  have hfirst : x.toUInt8.toUInt16.toNat = x.toNat % 256 := UInt16.toNat_toUInt8 x
  have hlow : (shared &&& 0x0F).toUInt16.toNat = shared.toNat % 16 :=
    (UInt8.toNat_and ..).trans (Nat.and_two_pow_sub_one_eq_mod shared.toNat 4)
  have hhigh : (shared >>> 4).toUInt16.toNat = shared.toNat / 16 :=
    (UInt8.toNat_shiftRight shared 4).trans (Nat.shiftRight_eq_div_pow ..)
  have hshift : (y >>> 4).toNat = y.toNat / 16 :=
    (UInt16.toNat_shiftRight y 4).trans (Nat.shiftRight_eq_div_pow ..)
  have hlast : (y >>> 4).toUInt8.toUInt16.toNat = y.toNat / 16 % 256 :=
    (UInt16.toNat_toUInt8 (y >>> 4)).trans (congrArg (· % 256) hshift)
  rw [← UInt16.toNat_inj, ← UInt16.toNat_inj,
    toNat_or_shiftLeft (by decide) (m := 256) rfl (by omega) (by omega),
    toNat_or_shiftLeft (by decide) (m := 16) rfl (by omega) (by omega), hfirst, hlow, hhigh, hlast]
  omega

theorem toNat_scale (v : Int) :
    (scale v).toNat = (max 0 (min stickMax (stickCenter + 16 * v))).toNat := by
  simp only [scale, UInt16.toNat_ofNat', stickMax, stickCenter]
  omega

theorem scale_lt (v : Int) : scale v < 4096 := by
  rw [UInt16.lt_iff_toNat_lt, toNat_scale]
  simp only [stickMax, stickCenter, UInt16.reduceToNat]
  omega

/-- **Scaling keeps all offsets apart.** -/
theorem scale_inj {v w : Int} (hv : -128 ≤ v ∧ v ≤ 128) (hw : -128 ≤ w ∧ w ≤ 128)
    (h : scale v = scale w) : v = w := by
  have hnat := congrArg UInt16.toNat h
  simp only [toNat_scale, stickMax, stickCenter] at hnat
  omega

theorem scale_toInt_inj {v w : Int8} (h : scale v.toInt = scale w.toInt) : v = w := by
  have hv := toInt_bounds v
  have hw := toInt_bounds w
  exact Int8.toInt_inj.1 (scale_inj (by omega) (by omega) h)

theorem scale_neg_toInt_inj {v w : Int8} (h : scale (-v.toInt) = scale (-w.toInt)) : v = w := by
  have hv := toInt_bounds v
  have hw := toInt_bounds w
  have hneg := scale_inj (by omega) (by omega) h
  exact Int8.toInt_inj.1 (by omega)

theorem stickBytes_inj {s t : Stick} (h : stickBytes s = stickBytes t) : s = t := by
  have hpair := congrArg unpackPair h
  simp only [stickBytes, stickValues, unpackPair_packPair (scale_lt _) (scale_lt _),
    Option.some.injEq, Prod.mk.injEq] at hpair
  have hx := scale_toInt_inj hpair.1
  have hy := scale_neg_toInt_inj hpair.2
  exact (Stick.mk.injEq ..).mpr ⟨hx, hy⟩

/-- The bits of the buttons and of the directions in one byte do not get into each other's way. -/
theorem leftByte_eq_iff (s t : Buttons) (d e : Dpad) :
    byteOf s leftBits ||| dpadBits d = byteOf t leftBits ||| dpadBits e ↔
      byteOf s leftBits = byteOf t leftBits ∧ dpadBits d = dpadBits e := by
  have hbuttons : ∀ u, byteOf u leftBits ∈ [0, 0x40, 0x80, 0xC0] := by
    intro u
    simp only [byteOf, leftBits, List.foldl_cons, List.foldl_nil]
    cases u.contains .l <;> cases u.contains .zl <;> decide
  have hdpad : ∀ c : Dpad, dpadBits c ∈ Dpad.places.map dpadBits := by
    intro c
    obtain ⟨p, hp, hcp⟩ := Dpad.exists_place c
    exact List.mem_map.2 ⟨p, hp, ((Dpad.dpadBits_eq_iff c p).2 hcp).symm⟩
  have hmasks : ([0, 0x40, 0x80, 0xC0].all fun x => (Dpad.places.map dpadBits).all fun y =>
      (x ||| y) &&& 0xF0 == x && (x ||| y) &&& 0x0F == y) = true := by decide
  simp only [List.all_eq_true, Bool.and_eq_true, beq_iff_eq] at hmasks
  obtain ⟨hs, hd⟩ := hmasks _ (hbuttons s) _ (hdpad d)
  obtain ⟨ht, he⟩ := hmasks _ (hbuttons t) _ (hdpad e)
  constructor
  · intro h
    rw [h] at hs hd
    exact ⟨hs.symm.trans ht, hd.symm.trans he⟩
  · rintro ⟨hbyte, hbits⟩
    rw [hbyte, hbits]

/-- The tables name every button. -/
theorem contains_eq_iff (s t : Buttons) :
    (∀ e ∈ rightBits ++ sharedBits ++ leftBits, s.contains e.1 = t.contains e.1) ↔
      s.lowBits = t.lowBits := by
  rw [Buttons.lowBits_eq_iff]
  constructor
  · intro h k hk
    have hnamed : ∀ k < 14, ∃ e ∈ rightBits ++ sharedBits ++ leftBits,
        e.1.raw.toNat = 1 <<< k := by decide
    obtain ⟨e, he, hbit⟩ := hnamed k hk
    rw [← Buttons.contains_eq_testBit s hbit, ← Buttons.contains_eq_testBit t hbit, h e he]
  · intro h e he
    have hnames : ∀ e ∈ rightBits ++ sharedBits ++ leftBits,
        ∃ k < 14, e.1.raw.toNat = 1 <<< k := by decide
    obtain ⟨k, hk, hbit⟩ := hnames e he
    rw [Buttons.contains_eq_testBit s hbit, Buttons.contains_eq_testBit t hbit, h k hk]

end ProBlock

/-! ### States -/

theorem joystickAxis_inj {v w : Int8} (h : joystickAxis v = joystickAxis w) : v = w := by
  have hv := toInt_bounds v
  have hw := toInt_bounds w
  have hnat := congrArg UInt8.toNat h
  simp only [joystickAxis, UInt8.toNat_ofNat'] at hnat
  exact Int8.toInt_inj.1 (by omega)

/-- The two bytes of a plain joystick tell the buttons. -/
theorem Buttons.bytes_eq_iff (s t : Buttons) :
    (s.raw.toUInt8 = t.raw.toUInt8 ∧
      (s.raw >>> 8).toUInt8 &&& (0x3F : UInt8) = (t.raw >>> 8).toUInt8 &&& (0x3F : UInt8)) ↔
      s.lowBits = t.lowBits := by
  have hhigh : ∀ u : Buttons,
      ((u.raw >>> 8).toUInt8 &&& (0x3F : UInt8)).toNat = u.raw.toNat / 256 % 64 := by
    intro u
    have hshift : (u.raw >>> 8).toUInt8.toNat = u.raw.toNat / 256 % 256 :=
      (UInt16.toNat_toUInt8 _).trans (congrArg (· % 256)
        ((UInt16.toNat_shiftRight u.raw 8).trans (Nat.shiftRight_eq_div_pow ..)))
    have hmask := Nat.and_two_pow_sub_one_eq_mod (u.raw >>> 8).toUInt8.toNat 6
    refine (UInt8.toNat_and ..).trans (hmask.trans ?_)
    rw [hshift]
    omega
  simp only [← UInt8.toNat_inj, ← UInt16.toNat_inj, hhigh, toNat_lowBits, UInt16.toNat_toUInt8]
  omega

namespace PadState

/-- Two states look alike: the same buttons, directions that come to the same, the same sticks. -/
structure LooksLike (s t : PadState) : Prop where
  /-- The bits that stand for buttons are the same. -/
  buttons : s.buttons.lowBits = t.buttons.lowBits
  /-- The directions are the same on the axes. -/
  axes : s.dpad.axes = t.dpad.axes
  /-- The left stick is. -/
  leftStick : s.leftStick = t.leftStick
  /-- The right stick is. -/
  rightStick : s.rightStick = t.rightStick

variable (s t : PadState)

theorem joystick_eq_iff : s.joystick = t.joystick ↔ s.LooksLike t := by
  constructor
  · intro h
    simp only [joystick, List.cons.injEq, and_true] at h
    obtain ⟨hlow, hhigh, hhat, hlx, hly, hrx, hry⟩ := h
    exact ⟨(Buttons.bytes_eq_iff _ _).1 ⟨hlow, hhigh⟩, (Dpad.hat_eq_iff _ _).1 hhat,
      (Stick.mk.injEq ..).mpr ⟨joystickAxis_inj hlx, joystickAxis_inj hly⟩,
      (Stick.mk.injEq ..).mpr ⟨joystickAxis_inj hrx, joystickAxis_inj hry⟩⟩
  · rintro ⟨hbuttons, haxes, hleft, hright⟩
    obtain ⟨hlow, hhigh⟩ := (Buttons.bytes_eq_iff _ _).2 hbuttons
    rw [joystick, joystick, hlow, hhigh, (Dpad.hat_eq_iff _ _).2 haxes, hleft, hright]

open ProBlock in
theorem proBlock_eq_iff : s.proBlock = t.proBlock ↔ s.LooksLike t := by
  have hright : HasOwnBits rightBits := by decide
  have hshared : HasOwnBits sharedBits := by decide
  have hleft : HasOwnBits leftBits := by decide
  have hbuttons : (byteOf s.buttons rightBits = byteOf t.buttons rightBits ∧
      byteOf s.buttons sharedBits = byteOf t.buttons sharedBits ∧
      byteOf s.buttons leftBits = byteOf t.buttons leftBits) ↔
      s.buttons.lowBits = t.buttons.lowBits := by
    rw [byteOf_eq_iff hright, byteOf_eq_iff hshared, byteOf_eq_iff hleft, ← contains_eq_iff]
    simp only [List.forall_mem_append, and_assoc]
  constructor
  · intro h
    simp only [proBlock, stickBytes, packPair, List.cons_append, List.nil_append, List.cons.injEq,
      and_true, true_and] at h
    obtain ⟨hbyte, hmiddle, hlast, hl, hl', hl'', hr, hr', hr''⟩ := h
    obtain ⟨hbits, hdpad⟩ := (leftByte_eq_iff ..).1 hlast
    have hsticks : stickBytes s.leftStick = stickBytes t.leftStick ∧
        stickBytes s.rightStick = stickBytes t.rightStick := by
      simp only [stickBytes, packPair, hl, hl', hl'', hr, hr', hr'', and_self]
    exact ⟨hbuttons.1 ⟨hbyte, hmiddle, hbits⟩, (Dpad.dpadBits_eq_iff ..).1 hdpad,
      stickBytes_inj hsticks.1, stickBytes_inj hsticks.2⟩
  · intro h
    obtain ⟨hbyte, hmiddle, hbits⟩ := hbuttons.2 h.buttons
    have hdpad := (Dpad.dpadBits_eq_iff ..).2 h.axes
    rw [proBlock, proBlock, hbyte, hmiddle, hbits, hdpad, h.leftStick, h.rightStick]

open ProBlock in
/-- **Both reports tell the same states apart**, those that do not look alike. For the sticks that is
because two numbers of twelve bits are found again in three bytes, and scaling merges no two offsets,
be they turned round or not. -/
theorem reports_tell_apart :
    (∀ s t : PadState, (s.joystick = t.joystick ↔ s.proBlock = t.proBlock) ∧
      (s.proBlock = t.proBlock ↔ s.LooksLike t)) ∧
    (∀ x y : UInt16, x < 4096 → y < 4096 → unpackPair (packPair x y) = some (x, y)) ∧
    ∀ v w : Int8, (scale v.toInt = scale w.toInt → v = w) ∧
      (scale (-v.toInt) = scale (-w.toInt) → v = w) := by
  refine ⟨fun s t => ⟨?_, proBlock_eq_iff s t⟩, fun x y => unpackPair_packPair,
    fun v w => ⟨scale_toInt_inj, scale_neg_toInt_inj⟩⟩
  rw [joystick_eq_iff, proBlock_eq_iff]

end PadState

end PadScript
