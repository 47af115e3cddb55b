import Mathlib.Data.List.Induction
import IDoris.Library.EventStream

/-!
# The guard against truncated event streams

The detector of the terminating event reads the stream byte by byte, in any chunks,
and keeps at most 64 bytes of a line. It finds exactly the streams with a complete
terminating block.
-/
namespace Proxy

open EventStream

inductive TerminalField where
  | dataDone
  | event (target : Bytes)

structure TerminalEvent where
  line : Bytes
  dataIsDone : Option Bool
  afterCr : Bool
  done : Bool
  firstLine : Bool
  terminal : TerminalField

/-- What a line that is not empty makes of the state of its block. -/
def readLine (terminal : TerminalField) (dataIsDone : Option Bool) (line : Bytes) : Option Bool :=
  match terminal with
  | .dataDone =>
    match stripPrefix (ascii "data:") line with
    | some data =>
      let data := (stripPrefix [space] data).getD data
      -- Two data fields are joined by a line feed, so a second one makes another value.
      some (dataIsDone.isNone && decide (data = ascii "[DONE]"))
    | none => if line = ascii "data" then some false else dataIsDone
  | .event target =>
    match stripPrefix (ascii "event:") line with
    | some event =>
      let event := (stripPrefix [space] event).getD event
      some (decide (event = target))
    | none => if line = ascii "event" then some false else dataIsDone

namespace TerminalEvent

def new (terminal : TerminalField) : TerminalEvent where
  line := []
  dataIsDone := none
  afterCr := false
  done := false
  firstLine := true
  terminal := terminal

/-- The line is complete. -/
def endLine (m : TerminalEvent) : TerminalEvent :=
  let line := if m.firstLine then dropMark m.line else m.line
  if line = [] then
    { m with
      line := []
      firstLine := false
      dataIsDone := none
      done := decide (m.dataIsDone = some true) }
  else
    { m with
      line := []
      firstLine := false
      dataIsDone := readLine m.terminal m.dataIsDone line }

def feedByte (m : TerminalEvent) (byte : UInt8) : TerminalEvent :=
  if m.done then m
  else if byte = lf ∧ m.afterCr = true then { m with afterCr := false }
  else
    let m := { m with afterCr := decide (byte = cr) }
    if byte = cr ∨ byte = lf then m.endLine
    else if m.line.length < 64 then { m with line := m.line ++ [byte] }
    else m

def feed (m : TerminalEvent) (bytes : Bytes) : TerminalEvent := bytes.foldl feedByte m

variable {m : TerminalEvent} {bytes rest : Bytes}

theorem feed_append : m.feed (bytes ++ rest) = (m.feed bytes).feed rest :=
  List.foldl_append

theorem feed_done (h : m.done = true) : m.feed bytes = m := by
  induction bytes with
  | nil => rfl
  | cons b rest ih =>
    have hbyte : m.feedByte b = m := by simp [feedByte, h]
    simpa [feed, hbyte] using ih

@[simp] theorem endLine_terminal : m.endLine.terminal = m.terminal := by
  by_cases h : (if m.firstLine then dropMark m.line else m.line) = [] <;> simp [endLine, h]

end TerminalEvent

/-- A block that ends the stream: its data is `[DONE]`, or its last event is the target. -/
def TerminalField.ends (terminal : TerminalField) (block : List Bytes) : Bool :=
  match terminal with
  | .dataDone => decide (data block = some (ascii "[DONE]"))
  | .event target => decide (lastEvent block = some target)

/-- The bytes contain a complete terminating block. -/
def Terminated (terminal : TerminalField) (bytes : Bytes) : Prop :=
  ∃ block ∈ blocks bytes, terminal.ends block = true

instance (terminal : TerminalField) (bytes : Bytes) : Decidable (Terminated terminal bytes) :=
  inferInstanceAs (Decidable (∃ block ∈ blocks bytes, terminal.ends block = true))

/-- The targets that are no empty value and that a line cut to 61 bytes still shows in full. -/
def TerminalField.Short : TerminalField → Prop
  | .dataDone => True
  | .event target => target ≠ [] ∧ target.length < 54

section Lines

variable {terminal : TerminalField} {dataIsDone : Option Bool} {line target name : Bytes} {n : Nat}

/-- The two ways in which the guard looks for a field, as one question about the line. -/
theorem strip_field (hname : colon ∉ name) (line : Bytes) :
    (∃ value, stripPrefix (name ++ [colon]) line = some value ∧
        field line = (name, (stripPrefix [space] value).getD value)) ∨
      (stripPrefix (name ++ [colon]) line = none ∧ line = name ∧ field line = (name, [])) ∨
      (stripPrefix (name ++ [colon]) line = none ∧ line ≠ name ∧ (field line).1 ≠ name) := by
  cases hstrip : stripPrefix (name ++ [colon]) line with
  | some value =>
    have hline : line = name ++ colon :: value := by simpa using stripPrefix_eq_some.mp hstrip
    exact .inl ⟨value, rfl, hline ▸ field_of_colon hname⟩
  | none =>
    by_cases hbare : line = name
    · exact .inr (.inl ⟨rfl, hbare, by rw [hbare, field_of_bare hname]⟩)
    · refine .inr (.inr ⟨rfl, hbare, fun hfield => ?_⟩)
      obtain h | ⟨value, h⟩ := (field_name_iff hname).mp hfield
      · exact hbare h
      · have hsome : stripPrefix (name ++ [colon]) line = some value :=
          stripPrefix_eq_some.mpr (by simpa using h)
        rw [hstrip] at hsome
        cases hsome

theorem readLine_dataDone (dataIsDone : Option Bool) (line : Bytes) :
    readLine .dataDone dataIsDone line =
      if (field line).1 = ascii "data" then
        some (dataIsDone.isNone && decide ((field line).2 = ascii "[DONE]")) else dataIsDone := by
  have hname : colon ∉ ascii "data" := by decide
  have hstart : ascii "data:" = ascii "data" ++ [colon] := by decide
  have hempty : ([] : Bytes) ≠ ascii "[DONE]" := by decide
  simp only [readLine, hstart]
  obtain ⟨value, hstrip, hfield⟩ | ⟨hstrip, hline, hfield⟩ | ⟨hstrip, hline, hfield⟩ :=
    strip_field hname line
  · simp [hstrip, hfield]
  · rw [hstrip, hfield]
    simp [hline, hempty]
  · rw [hstrip, if_neg hfield]
    simp [hline]

theorem readLine_event (htarget : target ≠ []) (dataIsDone : Option Bool) (line : Bytes) :
    readLine (.event target) dataIsDone line =
      if (field line).1 = ascii "event" then some (decide ((field line).2 = target))
      else dataIsDone := by
  have hname : colon ∉ ascii "event" := by decide
  have hstart : ascii "event:" = ascii "event" ++ [colon] := by decide
  simp only [readLine, hstart]
  obtain ⟨value, hstrip, hfield⟩ | ⟨hstrip, hline, hfield⟩ | ⟨hstrip, hline, hfield⟩ :=
    strip_field hname line
  · simp [hstrip, hfield]
  · rw [hstrip, hfield]
    simp [hline, htarget.symm]
  · rw [hstrip, if_neg hfield]
    simp [hline]

/-- A long line reads the same when it is cut. -/
theorem readLine_take (hshort : terminal.Short) (hn : 61 ≤ n) :
    readLine terminal dataIsDone (line.take n) = readLine terminal dataIsDone line := by
  cases terminal with
  | dataDone =>
    have hstart : (ascii "data:").length = 5 := by decide
    have hname : (ascii "data").length = 4 := by decide
    have hdone : (ascii "[DONE]").length = 6 := by decide
    simp only [readLine, stripPrefix_take (show (ascii "data:").length ≤ n by omega),
      take_eq_iff (show (ascii "data").length < n by omega)]
    cases stripPrefix (ascii "data:") line with
    | none => rfl
    | some value =>
      simp only [Option.map_some, value_take_iff
        (show (ascii "[DONE]").length + 1 < n - (ascii "data:").length by omega)]
  | event target =>
    have hstart : (ascii "event:").length = 6 := by decide
    have hname : (ascii "event").length = 5 := by decide
    have htarget : target.length < 54 := hshort.2
    simp only [readLine, stripPrefix_take (show (ascii "event:").length ≤ n by omega),
      take_eq_iff (show (ascii "event").length < n by omega)]
    cases stripPrefix (ascii "event:") line with
    | none => rfl
    | some value =>
      simp only [Option.map_some, value_take_iff
        (show target.length + 1 < n - (ascii "event:").length by omega)]

/-- The first three bytes of a cut line that are dropped as a mark leave 61. -/
theorem dropMark_take (line : Bytes) :
    ∃ n, 61 ≤ n ∧ dropMark (line.take 64) = (dropMark line).take n := by
  have hmark : byteOrderMark.length = 3 := rfl
  simp only [dropMark, stripPrefix_take (show byteOrderMark.length ≤ 64 by omega)]
  cases stripPrefix byteOrderMark line with
  | none => exact ⟨64, by omega, rfl⟩
  | some rest => exact ⟨61, le_refl _, rfl⟩

/-- A first block that ends the stream, looked for line by line. -/
def scanLines (terminal : TerminalField) (dataIsDone : Option Bool) : List Bytes → Bool
  | [] => false
  | line :: rest =>
    if line = [] then decide (dataIsDone = some true) || scanLines terminal none rest
    else scanLines terminal (readLine terminal dataIsDone line) rest

end Lines

section Feed

variable {m : TerminalEvent} {bytes whole : Bytes}

/-- The end of a line, of which the guard kept the first 64 bytes. -/
theorem endLine_scan (others : List Bytes) (hshort : m.terminal.Short) (hdone : m.done = false)
    (hline : m.line = whole.take 64) :
    (m.endLine.done = true ∧
        scanLines m.terminal m.dataIsDone (markFirst m.firstLine (whole :: others)) = true) ∨
      m.endLine.done = false ∧
        scanLines m.terminal m.endLine.dataIsDone others =
          scanLines m.terminal m.dataIsDone (markFirst m.firstLine (whole :: others)) := by
  obtain ⟨n, hn, hcut⟩ : ∃ n, 61 ≤ n ∧ (if m.firstLine then dropMark m.line else m.line) =
      (if m.firstLine then dropMark whole else whole).take n := by
    cases m.firstLine with
    | false => exact ⟨64, by omega, by simpa using hline⟩
    | true => simpa [hline] using dropMark_take whole
  simp only [TerminalEvent.endLine, hcut, markFirst]
  generalize (if m.firstLine = true then dropMark whole else whole) = shown
  have hempty : shown.take n = [] ↔ shown = [] := by
    rw [List.take_eq_nil_iff]
    exact or_iff_right (by omega)
  simp only [hempty, readLine_take hshort hn, scanLines]
  by_cases h : shown = []
  · by_cases hd : m.dataIsDone = some true <;> simp [h, hd]
  · simp [h, hdone]

@[simp] theorem endLine_line (m : TerminalEvent) : m.endLine.line = [] := by
  by_cases h : (if m.firstLine then dropMark m.line else m.line) = [] <;>
    simp [TerminalEvent.endLine, h]

@[simp] theorem endLine_firstLine (m : TerminalEvent) : m.endLine.firstLine = false := by
  by_cases h : (if m.firstLine then dropMark m.line else m.line) = [] <;>
    simp [TerminalEvent.endLine, h]

@[simp] theorem endLine_afterCr (m : TerminalEvent) : m.endLine.afterCr = m.afterCr := by
  by_cases h : (if m.firstLine then dropMark m.line else m.line) = [] <;>
    simp [TerminalEvent.endLine, h]

/-- The guard sees what a reader of whole lines sees. -/
theorem feed_scan (hshort : m.terminal.Short) (hdone : m.done = false)
    (hline : m.line = whole.take 64) (hcr : m.afterCr = true → whole = []) :
    (m.feed bytes).done = scanLines m.terminal m.dataIsDone
      (markFirst m.firstLine (segments lf whole (unify m.afterCr bytes))) := by
  induction bytes generalizing m whole with
  | nil => simpa [TerminalEvent.feed, unify, segments, markFirst, scanLines] using hdone
  | cons b rest ih =>
    have hfeed : m.feed (b :: rest) = (m.feedByte b).feed rest := rfl
    by_cases hskip : b = lf ∧ m.afterCr = true
    · obtain ⟨rfl, hafter⟩ := hskip
      have hbyte : m.feedByte lf = { m with afterCr := false } := by
        simp [TerminalEvent.feedByte, hdone, hafter]
      have hunify : unify m.afterCr (lf :: rest) = unify false rest := by simp [unify, hafter]
      rw [hfeed, hbyte, hunify]
      exact ih (m := { m with afterCr := false }) hshort hdone hline (by simp)
    · by_cases hend : b = cr ∨ b = lf
      · have hbyte : m.feedByte b = { m with afterCr := decide (b = cr) }.endLine := by
          simp [TerminalEvent.feedByte, hdone, hskip, hend]
        have hunify : unify m.afterCr (b :: rest) = lf :: unify (decide (b = cr)) rest := by
          obtain rfl | rfl := hend
          · simp [unify, show cr ≠ lf by decide]
          · have hafter : m.afterCr = false := by simpa using hskip
            simp [unify, hafter, show lf ≠ cr by decide]
        obtain ⟨hnow, hscan⟩ | ⟨hnot, hscan⟩ :=
          endLine_scan (m := { m with afterCr := decide (b = cr) })
            (segments lf [] (unify (decide (b = cr)) rest)) hshort hdone hline
        · rw [hfeed, hbyte, TerminalEvent.feed_done hnow, hunify]
          simpa [segments, hnow] using hscan.symm
        · rw [hfeed, hbyte, hunify]
          have hempty : { m with afterCr := decide (b = cr) }.endLine.line = [].take 64 := by simp
          have hrest := ih (m := { m with afterCr := decide (b = cr) }.endLine)
            (by simpa using hshort) hnot hempty (by simp)
          simpa [segments, hrest] using hscan
      · obtain ⟨hnotcr, hnotlf⟩ := not_or.mp hend
        have hunify : unify m.afterCr (b :: rest) = b :: unify false rest := by
          simp [unify, hnotcr, hnotlf]
        have hsegments : segments lf whole (b :: unify false rest) =
            segments lf (whole ++ [b]) (unify false rest) := by simp [segments, hnotlf]
        have hlength : m.line.length = min 64 whole.length := by rw [hline, List.length_take]
        rw [hfeed, hunify, hsegments]
        by_cases hroom : m.line.length < 64
        · have hbyte : m.feedByte b =
              { m with afterCr := false, line := m.line ++ [b] } := by
            simp [TerminalEvent.feedByte, hdone, hnotcr, hnotlf, hroom]
          have hall : m.line = whole := by rw [hline, List.take_of_length_le (by omega)]
          rw [hbyte]
          refine ih (m := { m with afterCr := false, line := m.line ++ [b] }) hshort hdone ?_ (by rintro ⟨⟩)
          rw [hall, List.take_of_length_le]
          simp only [List.length_append, List.length_singleton]
          omega
        · have hbyte : m.feedByte b = { m with afterCr := false } := by
            simp [TerminalEvent.feedByte, hdone, hnotcr, hnotlf, hroom]
          rw [hbyte]
          refine ih (m := { m with afterCr := false }) hshort hdone ?_ (by rintro ⟨⟩)
          rw [hline, List.take_append_of_le_length (by omega)]

end Feed

section Blocks

variable {terminal : TerminalField} {target : Bytes}

/-- The state of a block of data fields: none, the one value, or too many. -/
theorem foldl_dataDone (block : List Bytes) :
    block.foldl (readLine .dataDone) none =
      match values (ascii "data") block with
      | [] => none
      | [value] => some (decide (value = ascii "[DONE]"))
      | _ :: _ :: _ => some false := by
  induction block using List.reverseRecOn with
  | nil => rfl
  | append_singleton block line ih =>
    rw [List.foldl_append, ih, values_append, List.foldl_cons, List.foldl_nil,
      readLine_dataDone]
    by_cases h : (field line).1 = ascii "data"
    · obtain hnone | ⟨value, hone⟩ | ⟨value, other, more, hmany⟩ :
          values (ascii "data") block = [] ∨
            (∃ value, values (ascii "data") block = [value]) ∨
            ∃ value other more, values (ascii "data") block = value :: other :: more := by
        cases values (ascii "data") block with
        | nil => exact .inl rfl
        | cons value others =>
          cases others with
          | nil => exact .inr (.inl ⟨value, rfl⟩)
          | cons other more => exact .inr (.inr ⟨value, other, more, rfl⟩)
      · simp [hnone, h]
      · simp [hone, h]
      · simp [hmany, h]
    · simp [h]

theorem foldl_event (htarget : target ≠ []) (block : List Bytes) :
    block.foldl (readLine (.event target)) none =
      (lastEvent block).map fun event => decide (event = target) := by
  induction block using List.reverseRecOn with
  | nil => rfl
  | append_singleton block line ih =>
    rw [List.foldl_append, ih, List.foldl_cons, List.foldl_nil, readLine_event htarget]
    by_cases h : (field line).1 = ascii "event" <;> simp [h, lastEvent, values_append]

/-- What the guard remembers of a block says whether the block ends the stream. -/
theorem foldl_iff_ends (hshort : terminal.Short) (block : List Bytes) :
    block.foldl (readLine terminal) none = some true ↔ terminal.ends block = true := by
  cases terminal with
  | dataDone =>
    have hdone : lf ∉ ascii "[DONE]" := by decide
    rw [TerminalField.ends, decide_eq_true_iff, data_eq_some hdone, foldl_dataDone]
    split <;> rename_i h <;> simp [h]
  | event target =>
    rw [TerminalField.ends, decide_eq_true_iff, foldl_event hshort.1, Option.map_eq_some_iff]
    simp

theorem scanLines_iff (hshort : terminal.Short) (cur ls : List Bytes) :
    scanLines terminal (cur.foldl (readLine terminal) none) ls = true ↔
      ∃ block ∈ segments [] cur ls, terminal.ends block = true := by
  induction ls generalizing cur with
  | nil => simp [scanLines, segments]
  | cons line rest ih =>
    by_cases h : line = []
    · have hnext := ih []
      rw [List.foldl_nil] at hnext
      simp only [scanLines, segments, h, if_true, Bool.or_eq_true, decide_eq_true_iff, hnext,
        List.exists_mem_cons_iff, foldl_iff_ends hshort]
    · have hnext := ih (cur ++ [line])
      rw [List.foldl_append, List.foldl_cons, List.foldl_nil] at hnext
      simpa only [scanLines, segments, h, if_false] using hnext

/-- The guard is done exactly when a complete block of the stream ends it. -/
theorem feed_new_iff (hshort : terminal.Short) (bytes : Bytes) :
    ((TerminalEvent.new terminal).feed bytes).done = true ↔ Terminated terminal bytes := by
  have hline : (TerminalEvent.new terminal).line = [].take 64 := rfl
  rw [feed_scan hshort rfl hline nofun]
  have hscan := scanLines_iff hshort [] (lines (dropMark bytes))
  rw [lines_dropMark] at hscan
  rw [Terminated, blocks, lines_dropMark]
  exact hscan

end Blocks

end Proxy
