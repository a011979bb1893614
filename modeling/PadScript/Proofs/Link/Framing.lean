import Mathlib.Data.List.Forall2
import PadScript.Proofs.Link.Trace

/-!
# Lines without faults

When the receiver does not fail and writes do not fail either, the link treats the lines that arrive
one after another, each of them for itself. `CommandLink.Treats` says what it does with a line: a
line that is too long and one that is not UTF-8 get a status line, a blank one gets none, and every
other one is handed on and gets the answer.

* `CommandLink.treats_of_follows` : the newline behind a line has the line treated like this.
* `CommandLink.Framed.turn` : **one more item** completes a line, or belongs to the open one.
* `CommandLink.Trace.treats_lines` : **the lines are treated in order, each exactly once.**
-/

namespace PadScript

/-- The status line is written. -/
def Station.say (status : String) (s : Station) : Station :=
  { s with wires := { s.wires with
    uartOut := s.wires.uartOut ++ [(s.now, status.toList ++ ['\n'])] } }

namespace CommandLink

/-- What is done with a line: the payload that is handed on, if there is one, and what the station
comes to. -/
inductive Treats (setup : Setup) : (line : List UInt8) → Option Text → Station → Station → Prop
  /-- The line is longer than 512 bytes. -/
  | tooLong {line : List UInt8} {s : Station} : 512 < line.length →
      Treats setup line none s (s.say "error: line too long")
  /-- The line is not UTF-8. -/
  | notText {line bare : List UInt8} {s : Station} : line.length ≤ 512 →
      LineReader.IsBare line bare → (∀ text, Text.toUtf8 text ≠ bare) →
      Treats setup line none s (s.say "error: invalid utf-8")
  /-- The line is blank. -/
  | blank {line : List UInt8} {text : Text} {s : Station} : line.length ≤ 512 →
      LineReader.IsBare line (Text.toUtf8 text) → text.IsBlanks → Treats setup line none s s
  /-- The line is handed on. Its answer is one line, and nothing else is written. -/
  | command {line : List UInt8} {text : Text} {response : Response} {s s' : Station} :
      line.length ≤ 512 → LineReader.IsBare line (Text.toUtf8 text) → ¬text.IsBlanks →
      s.handle setup text = (response, s') → s'.wires = s.wires → s'.now = s.now →
      '\n' ∉ response.message.toList →
      Treats setup line (some text) s (s'.say response.message)

/-! ### One line -/

/-- A status that is short enough is written as it is. -/
theorem respond_eq_say {status : String} {s : Station} (hfaults : s.wires.uartFaults = 0)
    (hshort : (Text.toUtf8 (status.toList ++ ['\n'])).length ≤ longestStatus) :
    respond status s = s.say status := by
  have hline : statusLine status = status.toList ++ ['\n'] := if_pos hshort
  simp only [respond, hfaults, hline, Station.say]

theorem length_message_le (response : Response) :
    (Text.toUtf8 (response.message.toList ++ ['\n'])).length ≤ longestStatus := by
  cases response with
  | accepted => decide
  | queued => decide
  | error e => cases e <;> decide

theorem newline_not_mem_message (response : Response) : '\n' ∉ response.message.toList := by
  cases response with
  | accepted => decide
  | queued => decide
  | error e => cases e <;> decide

variable {setup : Setup} {line : List UInt8} {t : Reading}

/-- **The newline behind a line has the line treated.** -/
theorem treats_of_follows (h : t.Follows setup line) (hitem : t.item = .byte LineReader.newline)
    (hfaults : t.before.wires.uartFaults = 0) : Treats setup line t.payload t.before t.after := by
  have hcompleted : LineReader.completed? line t.item = some (LineReader.read line) := by
    rw [hitem]
    rfl
  rw [h.payload_eq, h.after_eq, hcompleted, settle]
  by_cases hlong : line.length ≤ LineReader.longest
  · obtain ⟨bare, hbare⟩ := LineReader.exists_isBare line
    cases htext : Text.ofUtf8? bare with
    | none =>
      have hread : LineReader.read line = .error .utf8 := by
        rw [LineReader.read, if_pos hlong, hbare.finish_eq, htext]
      have hnot : ∀ text, Text.toUtf8 text ≠ bare := by
        rintro text rfl
        rw [Text.ofUtf8?_toUtf8] at htext
        cases htext
      have hsay : serve setup (.error .utf8) t.before = t.before.say "error: invalid utf-8" :=
        respond_eq_say hfaults (by decide)
      rw [hread, hsay]
      exact .notText hlong hbare hnot
    | some text =>
      obtain rfl := Text.ofUtf8?_eq_some_iff.1 htext
      rw [LineReader.read_eq_ok_iff.2 ⟨hlong, hbare⟩]
      by_cases hblank : text.IsBlanks
      · have htrim : Text.trim text = [] := Text.trim_eq_nil_iff.2 hblank
        simp only [payload?, serve, htrim, List.isEmpty_nil, if_true]
        exact .blank hlong hbare hblank
      · have hpayload : payload? (some (.ok text)) = some text :=
          payload?_eq_some_iff.2 ⟨rfl, hblank⟩
        obtain ⟨pad, queue, heq⟩ := t.before.handle_eq setup text
        have hwires : (t.before.handle setup text).2.wires = t.before.wires := by rw [heq]
        rw [hpayload, serve_of_payload hpayload,
          respond_eq_say (by rw [hwires, hfaults]) (length_message_le _)]
        exact .command hlong hbare hblank rfl hwires (by rw [heq]) (newline_not_mem_message _)
  · have hread : LineReader.read line = .error .overflow := if_neg hlong
    have hsay : serve setup (.error .overflow) t.before = t.before.say "error: line too long" :=
      respond_eq_say hfaults (by decide)
    rw [hread, hsay]
    exact .tooLong (Nat.lt_of_not_le hlong)

/-- Within a line nothing is done. -/
theorem keeps_of_follows (h : t.Follows setup line) {b : UInt8} (hitem : t.item = .byte b)
    (hb : b ≠ LineReader.newline) : t.payload = none ∧ t.after = t.before := by
  have hcompleted : LineReader.completed? line t.item = none := by
    rw [hitem, LineReader.completed?, if_neg hb]
  rw [h.payload_eq, h.after_eq, hcompleted]
  exact ⟨rfl, rfl⟩

/-! ### Line after line -/

/-- The readings cut into lines. -/
structure Framed (setup : Setup) (log : List Reading) (lines : List (List UInt8))
    (rest : List UInt8) : Prop where
  /-- What was read is these lines, each with its newline, and the open line. -/
  items_eq : items log = (lines.flatMap (· ++ [LineReader.newline]) ++ rest).map .byte
  /-- A line does not hold a newline. -/
  not_mem : ∀ line ∈ lines, LineReader.newline ∉ line
  /-- The open line does not hold one either. -/
  not_mem_rest : LineReader.newline ∉ rest
  /-- The newlines have had these lines treated, in this order. -/
  treats : List.Forall₂ (fun line t => Treats setup line t.payload t.before t.after) lines
    (log.filter fun t => t.item = .byte LineReader.newline)
  /-- Nothing was done about the other bytes. -/
  keeps : ∀ t ∈ log, t.item ≠ .byte LineReader.newline → t.payload = none ∧ t.after = t.before

theorem Framed.openLine_eq {log : List Reading} {lines : List (List UInt8)} {rest : List UInt8}
    (h : Framed setup log lines rest) : LineReader.openLine (items log) = rest := by
  have hlines : ∀ lines : List (List UInt8), LineReader.openLine
      ((lines.flatMap (· ++ [LineReader.newline])).map .byte) = [] := by
    intro lines
    rcases List.eq_nil_or_concat lines with rfl | ⟨front, last, rfl⟩
    · rfl
    · simp only [List.concat_eq_append, List.flatMap_append, List.flatMap_singleton,
        List.map_append, ← List.append_assoc]
      exact LineReader.openLine_newline _
  rw [h.items_eq, List.map_append, LineReader.openLine_append_bytes _ h.not_mem_rest, hlines,
    List.nil_append]

/-- **One more byte ends the open line, or belongs to it.** -/
theorem Framed.turn {log : List Reading} {lines : List (List UInt8)} {rest : List UInt8}
    (h : Framed setup log lines rest) (ht : t.Follows setup rest) {b : UInt8}
    (hitem : t.item = .byte b) (hfaults : t.before.wires.uartFaults = 0) :
    ∃ lines rest, Framed setup (log ++ [t]) lines rest := by
  by_cases hb : b = LineReader.newline
  · subst hb
    refine ⟨lines ++ [rest], [], ?_, ?_, by simp, ?_, ?_⟩
    · rw [items_append, h.items_eq]
      simp [items, hitem]
    · exact List.forall_mem_append.2 ⟨h.not_mem, List.forall_mem_singleton.2 h.not_mem_rest⟩
    · have hlast : [t].filter (fun t => t.item = .byte LineReader.newline) = [t] := by simp [hitem]
      rw [List.filter_append, hlast]
      exact List.rel_append h.treats (.cons (treats_of_follows ht hitem hfaults) .nil)
    · refine List.forall_mem_append.2 ⟨h.keeps, List.forall_mem_singleton.2 fun hnot => ?_⟩
      exact absurd hitem hnot
  · have hnot : t.item ≠ .byte LineReader.newline := by simpa [hitem] using hb
    refine ⟨lines, rest ++ [b], ?_, h.not_mem, ?_, ?_, ?_⟩
    · rw [items_append, h.items_eq]
      simp [items, hitem]
    · simp [h.not_mem_rest, Ne.symm hb]
    · have hlast : [t].filter (fun t => t.item = .byte LineReader.newline) = [] := by simp [hnot]
      rw [List.filter_append, hlast, List.append_nil]
      exact h.treats
    · refine List.forall_mem_append.2 ⟨h.keeps, List.forall_mem_singleton.2 fun _ => ?_⟩
      exact keeps_of_follows ht hitem hb

/-- Readings of bytes, with writes that do not fail, are cut into lines. -/
theorem exists_framed {log : List Reading} (h : Follows setup log)
    (hclean : ∀ item ∈ items log, ∃ b, item = .byte b)
    (hworks : ∀ t ∈ log, t.before.wires.uartFaults = 0) :
    ∃ lines rest, Framed setup log lines rest := by
  induction log using List.reverseRecOn with
  | nil => exact ⟨[], [], rfl, List.forall_mem_nil _, by simp, .nil, List.forall_mem_nil _⟩
  | append_singleton log t ih =>
    obtain ⟨hlog, ht⟩ := follows_concat.1 h
    rw [items_append] at hclean
    obtain ⟨hcleanLog, hcleanLast⟩ := List.forall_mem_append.1 hclean
    obtain ⟨hworksLog, hworksLast⟩ := List.forall_mem_append.1 hworks
    obtain ⟨lines, rest, hframed⟩ := ih hlog hcleanLog hworksLog
    obtain ⟨b, hb⟩ := hcleanLast t.item (by simp [items])
    rw [hframed.openLine_eq] at ht
    exact hframed.turn ht hb (hworksLast t (by simp))

variable {first s : Station} {received : List UartItem} {log : List Reading} {r : LineReader}

/-- **The lines that arrive are treated in order, each exactly once and for itself**, if nothing but
bytes arrives and no write fails. What was read is these lines and what is open; what was written is
what was written about them; and while anything is left to be read, the next step reads it. -/
theorem Trace.treats_lines (h : Trace setup first received log r s) {bytes : List UInt8}
    (hclean : received = bytes.map .byte)
    (hworks : ∀ t ∈ log, t.before.wires.uartFaults = 0) :
    (∃ lines rest unread, Framed setup log lines rest ∧ s.wires.uartIn = unread.map .byte ∧
      bytes = lines.flatMap (· ++ [LineReader.newline]) ++ rest ++ unread) ∧
    s.wires.uartOut = first.wires.uartOut ++ log.flatMap Reading.written ∧
    (s.wires.uartIn ≠ [] → ∃ s' r', step setup r s = .go s' r') := by
  have hreceived := h.received_eq
  have hbytes : ∀ item ∈ items log, ∃ b, item = .byte b := by
    intro item hitem
    have hmem : item ∈ bytes.map .byte := by
      rw [← hclean, hreceived]
      exact List.mem_append_left _ hitem
    obtain ⟨b, -, rfl⟩ := List.mem_map.1 hmem
    exact ⟨b, rfl⟩
  obtain ⟨lines, rest, hframed⟩ := exists_framed h.follows hbytes hworks
  refine ⟨?_, h.output_eq, fun hleft => ?_⟩
  · rw [hclean, hframed.items_eq] at hreceived
    obtain ⟨read, unread, hread, hmap, hunread⟩ := List.map_eq_append_iff.1 hreceived
    have hinj : Function.Injective UartItem.byte := fun _ _ h => UartItem.byte.inj h
    obtain rfl := List.map_injective_iff.2 hinj hmap
    exact ⟨lines, rest, unread, hframed, hunread.symm, hread⟩
  · obtain ⟨item, items, hnext⟩ := List.exists_cons_of_ne_nil hleft
    exact ⟨_, _, step_of_item hnext setup r⟩

/-- A pad without macros. -/
def unscripted : Setup := ⟨.empty, { Config.standard with profile := .horipadS }⟩

/-- A line of 513 bytes, and behind it a stop. -/
def overlong : List UInt8 :=
  List.replicate 513 120 ++ LineReader.newline ::
    Text.toUtf8 "\x7b\"stop\":true\x7d\x0d\x0a".toList

/-- The pad to which they have come. -/
def addressed : Station := leaving (unscripted.station .prompt 0) (overlong.map .byte)

/-- They are read to the end. -/
theorem Trace.treats_lines_overlong :
    ∃ log r s, Trace unscripted addressed (overlong.map .byte) log r s ∧
      (∀ t ∈ log, t.before.wires.uartFaults = 0) ∧ s.wires.uartIn = [] ∧
      ∃ lines rest unread, Framed unscripted log lines rest ∧ s.wires.uartIn = unread.map .byte ∧
        overlong = lines.flatMap (· ++ [LineReader.newline]) ++ rest ++ unread := by
  have hstart : Trace unscripted addressed (overlong.map .byte) [] (.collecting []) addressed :=
    .start
  obtain ⟨log, r, s, htrace, hend, hworks⟩ := hstart.exists_end
  exact ⟨log, r, s, htrace, hworks rfl, hend, (htrace.treats_lines rfl (hworks rfl)).1⟩

end CommandLink

end PadScript
