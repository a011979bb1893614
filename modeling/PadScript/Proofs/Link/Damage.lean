import Mathlib.Data.List.DropRight
import PadScript.Proofs.Link.Framing

/-!
# Damaged lines

A failure of the receiver breaks off what is open of a line, also of one that is being discarded,
and the reader does not wait for the newline behind it: what is left of the line is read as if it
were a line of its own.

* `LineReader.exists_damaged` : a line so far is what was broken off of it, and what is open.
* `CommandLink.Trace.handed_iff` : **the payload of a line is what stands behind its last failure**,
  and it is the whole line exactly if there was none.
* `CommandLink.not_inStep_broken` : so the tail of a discarded line can be carried out.
-/

namespace PadScript

namespace LineReader

/-- What has come of a line: the items since the last newline. -/
def lineSoFar (items : List UartItem) : List UartItem :=
  items.rtakeWhile fun item => item ≠ .byte newline

theorem lineSoFar_concat (items : List UartItem) {item : UartItem} (h : item ≠ .byte newline) :
    lineSoFar (items ++ [item]) = lineSoFar items ++ [item] :=
  List.rtakeWhile_concat_pos _ _ _ (by simpa using h)

theorem lineSoFar_newline (items : List UartItem) : lineSoFar (items ++ [.byte newline]) = [] :=
  List.rtakeWhile_concat_neg _ _ _ (by simp)

/-- What was broken off of a line: nothing, or items up to a failure. -/
def IsBrokenOff (items : List UartItem) : Prop :=
  items = [] ∨ ∃ e, items.getLast? = some (.failure e)

/-- What has come of a line was broken off up to the last failure; the rest is open. -/
theorem exists_damaged (items : List UartItem) :
    ∃ damaged, lineSoFar items = damaged ++ (openLine items).map .byte ∧ IsBrokenOff damaged := by
  induction items using List.reverseRecOn with
  | nil => exact ⟨[], rfl, .inl rfl⟩
  | append_singleton items item ih =>
    rw [openLine_concat]
    cases item with
    | byte b =>
      by_cases hb : b = newline
      · subst hb
        exact ⟨[], lineSoFar_newline items, .inl rfl⟩
      · obtain ⟨damaged, hline, hdamaged⟩ := ih
        have hnot : UartItem.byte b ≠ .byte newline := by simpa using hb
        refine ⟨damaged, ?_, hdamaged⟩
        rw [lineSoFar_concat items hnot, hline, push, if_neg hb, List.map_append, List.append_assoc]
        rfl
    | failure e =>
      refine ⟨lineSoFar items ++ [.failure e], ?_, .inr ⟨e, by simp⟩⟩
      rw [lineSoFar_concat items (by simp), push, List.map_nil, List.append_nil]

/-- The items since the last newline are bytes, and spell a payload. -/
def IsWhole (items : List UartItem) (payload : Text) : Prop :=
  ∃ bytes, lineSoFar items = bytes.map .byte ∧ IsBare bytes (Text.toUtf8 payload)

theorem IsBrokenOff.eq_nil {damaged : List UartItem} (h : IsBrokenOff damaged)
    (hbytes : ∀ e, .failure e ∉ damaged) : damaged = [] := by
  rcases h with hnil | ⟨e, hlast⟩
  · exact hnil
  · exact absurd (List.mem_of_getLast? hlast) (hbytes e)

end LineReader

namespace CommandLink

open LineReader

variable {setup : Setup} {line : List UInt8} {t : Reading}

theorem completed?_eq_ok_iff {item : UartItem} {text : Text} :
    completed? line item = some (.ok text) ↔
      item = .byte newline ∧ line.length ≤ longest ∧ IsBare line (Text.toUtf8 text) := by
  cases item with
  | failure e => simp [completed?]
  | byte b =>
    rw [← read_eq_ok_iff, completed?, UartItem.byte.injEq]
    split
    next hb => simp [hb]
    next hb => simp [hb]

/-- **Which payload is handed on behind an open line.** -/
theorem Reading.Follows.payload_eq_some_iff (h : t.Follows setup line) {payload : Text} :
    t.payload = some payload ↔ t.item = .byte newline ∧ line.length ≤ longest ∧
      IsBare line (Text.toUtf8 payload) ∧ ¬payload.IsBlanks := by
  rw [h.payload_eq, payload?_eq_some_iff, completed?_eq_ok_iff]
  simp only [and_assoc]

/-- Every payload that was handed on is one whole line of what was read. -/
def InStep (log : List Reading) : Prop :=
  ∀ earlier t later payload, log = earlier ++ t :: later → t.payload = some payload →
    t.item = .byte newline ∧ IsWhole (items earlier) payload

namespace Trace

variable {first s : Station} {received : List UartItem} {earlier later : List Reading}
  {r : LineReader}

/-- **The payload of a line is what stands behind the last failure in it.** It is handed on at the
newline, if it is a text of at most 512 bytes and not blank, and it is the whole line exactly if
there was no failure in the line. Nothing but a payload is carried out. -/
theorem handed_iff (h : Trace setup first received (earlier ++ t :: later) r s) :
    (∃ damaged bytes, lineSoFar (items earlier) = damaged ++ bytes.map .byte ∧
      IsBrokenOff damaged ∧ ∀ payload,
        (t.payload = some payload ↔ t.item = .byte newline ∧ bytes.length ≤ longest ∧
          IsBare bytes (Text.toUtf8 payload) ∧ ¬payload.IsBlanks) ∧
        (t.payload = some payload →
          (IsWhole (items earlier) payload ↔ ∀ e, .failure e ∉ lineSoFar (items earlier)))) ∧
      t.CarriesOut setup := by
  obtain ⟨damaged, hline, hdamaged⟩ := exists_damaged (items earlier)
  have hfollows : t.Follows setup (openLine (items earlier)) := h.follows earlier t later rfl
  refine ⟨⟨damaged, _, hline, hdamaged, fun payload => ?_⟩, hfollows.carriesOut⟩
  refine ⟨hfollows.payload_eq_some_iff, fun hpayload => ?_⟩
  constructor
  · rintro ⟨bytes, hbytes, -⟩ e he
    simp [hbytes] at he
  · intro hclean
    have hnil : damaged = [] := by
      refine hdamaged.eq_nil fun e he => hclean e ?_
      rw [hline]
      exact List.mem_append_left _ he
    rw [hnil, List.nil_append] at hline
    exact ⟨_, hline, (hfollows.payload_eq_some_iff.1 hpayload).2.2.1⟩

end Trace

/-- A request to stop. -/
def halt : Text := "\x7b\"stop\":true\x7d".toList

/-- A line that is too long, and the receiver fails before its last bytes. -/
def broken : List UartItem :=
  (List.replicate 513 (.byte 120) ++ [.failure .overrun]) ++ (Text.toUtf8 halt).map .byte

/-- The pad to which this line has come. -/
def beset : Station := leaving (unscripted.station .prompt 0) (broken ++ [.byte newline])

theorem openLine_broken : openLine broken = Text.toUtf8 halt := by
  rw [broken, openLine_append_bytes _ (by decide), openLine_failure, List.nil_append]

theorem lineSoFar_broken : lineSoFar broken = broken := by
  refine List.rtakeWhile_eq_self_iff.2 (List.forall_mem_append.2 ⟨?_, by decide⟩)
  refine List.forall_mem_append.2 ⟨fun item hitem => ?_, by decide⟩
  rw [List.eq_of_mem_replicate hitem]
  decide

theorem exists_trace_broken :
    ∃ earlier t r s, Trace unscripted beset (broken ++ [.byte newline]) (earlier ++ [t]) r s ∧
      items earlier = broken ∧ t.item = .byte newline := by
  have hstart : Trace unscripted beset (broken ++ [.byte newline]) [] (.collecting []) beset :=
    .start
  obtain ⟨log, r, s, htrace, hend, -⟩ := hstart.exists_end
  have hitems : broken ++ [.byte newline] = items log := by
    simpa [hend] using htrace.received_eq
  obtain ⟨earlier, last, rfl, hearlier, hlast⟩ := List.map_eq_append_iff.1 hitems.symm
  obtain ⟨t, rfl, ht⟩ := List.map_eq_singleton_iff.1 hlast
  exact ⟨earlier, t, r, s, htrace, hearlier, ht⟩

/-- **The tail of a discarded line can be carried out**, as a command to stop. -/
theorem not_inStep_broken :
    ∃ earlier t r s, Trace unscripted beset (broken ++ [.byte newline]) (earlier ++ [t]) r s ∧
      items earlier = broken ∧ t.payload = some halt ∧
      t.after.queue = t.before.queue.stop ∧ ¬InStep (earlier ++ [t]) := by
  obtain ⟨earlier, t, r, s, htrace, hitems, ht⟩ := exists_trace_broken
  have hfollows := htrace.follows earlier t [] rfl
  rw [hitems, openLine_broken] at hfollows
  have hpayload : t.payload = some halt := by
    refine hfollows.payload_eq_some_iff.2 ⟨ht, by decide, .inr ⟨rfl, by decide⟩, ?_⟩
    rw [← Text.trim_eq_nil_iff]
    decide
  have hqueue : t.after.queue = t.before.queue.stop := by
    obtain ⟨faults, written, -, heq⟩ := respond_eq
      (t.before.handle unscripted halt).1.message (t.before.handle unscripted halt).2
    rw [hfollows.carriesOut.handed halt hpayload, heq]
    rfl
  refine ⟨earlier, t, r, s, htrace, hitems, hpayload, hqueue, fun hstep => ?_⟩
  obtain ⟨-, bytes, hbytes, -⟩ := hstep earlier t [] halt rfl hpayload
  have hfailure : .failure .overrun ∈ bytes.map UartItem.byte := by
    rw [← hbytes, hitems, lineSoFar_broken, broken]
    exact List.mem_append_left _ (List.mem_append_right _ (List.mem_singleton_self _))
  simp at hfailure

/-- What is handed on at the end of this line. -/
theorem handed_iff_broken :
    ∃ earlier t r s, Trace unscripted beset (broken ++ [.byte newline]) (earlier ++ [t]) r s ∧
      (∃ damaged bytes, lineSoFar (items earlier) = damaged ++ bytes.map .byte ∧
        IsBrokenOff damaged ∧ ∀ payload,
          (t.payload = some payload ↔ t.item = .byte newline ∧ bytes.length ≤ longest ∧
            IsBare bytes (Text.toUtf8 payload) ∧ ¬payload.IsBlanks) ∧
          (t.payload = some payload →
            (IsWhole (items earlier) payload ↔ ∀ e, .failure e ∉ lineSoFar (items earlier)))) ∧
      t.CarriesOut unscripted := by
  obtain ⟨earlier, t, r, s, htrace, -, -⟩ := exists_trace_broken
  exact ⟨earlier, t, r, s, htrace, htrace.handed_iff⟩

end CommandLink

end PadScript
