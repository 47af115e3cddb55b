import Mathlib.Data.List.Basic
import Mathlib.Data.List.TakeWhile
import Mathlib.Tactic.Common

/-!
# Event streams

The text format of server-sent events: lines with any of three endings, blocks of
lines up to an empty one, and the fields of a block. Only what is complete counts.
-/
namespace EventStream

abbrev Bytes := List UInt8

def cr : UInt8 := 13
def lf : UInt8 := 10
def colon : UInt8 := 58
def space : UInt8 := 32

def byteOrderMark : Bytes := [0xef, 0xbb, 0xbf]

/-- The bytes of an ASCII text. -/
def ascii (text : String) : Bytes := text.toList.map fun c => c.toNat.toUInt8

/-- A long enough cut does not hide an inequality. -/
theorem take_eq_iff {α : Type} {start list : List α} {n : Nat} (h : start.length < n) :
    list.take n = start ↔ list = start := by
  constructor
  · intro htake
    have hlength := congrArg List.length htake
    rw [List.length_take] at hlength
    rw [← htake, List.take_of_length_le (by omega)]
  · rintro rfl
    exact List.take_of_length_le (by omega)

section Segments

variable {α : Type} [DecidableEq α]

/-- The segments of a list that the separator ends, the first one after what was read before. -/
def segments (sep : α) (before : List α) : List α → List (List α)
  | [] => []
  | x :: rest =>
    if x = sep then before :: segments sep [] rest else segments sep (before ++ [x]) rest

/-- The rest of a list behind a prefix. -/
def stripPrefix (start list : List α) : Option (List α) :=
  if start.isPrefixOf list then some (list.drop start.length) else none

variable {sep x : α} {before list start : List α}

/-- What was read before belongs to the first segment. -/
theorem segments_append (more before : List α) :
    segments sep (more ++ before) list =
      match segments sep before list with
      | [] => []
      | first :: others => (more ++ first) :: others := by
  induction list generalizing before with
  | nil => rfl
  | cons x rest ih =>
    by_cases h : x = sep
    · simp [segments, h]
    · simpa [segments, h] using ih (before ++ [x])

theorem stripPrefix_eq_some {rest : List α} :
    stripPrefix start list = some rest ↔ list = start ++ rest := by
  unfold stripPrefix
  constructor
  · intro h
    split at h
    · rename_i hstart
      obtain ⟨tail, rfl⟩ := List.isPrefixOf_iff_prefix.mp hstart
      simpa using h
    · cases h
  · rintro rfl
    simp

theorem stripPrefix_take {n : Nat} (h : start.length ≤ n) :
    stripPrefix start (list.take n) =
      (stripPrefix start list).map (List.take (n - start.length)) := by
  cases hstrip : stripPrefix start list with
  | none =>
    rw [Option.map_none]
    cases hshort : stripPrefix start (list.take n) with
    | none => rfl
    | some rest =>
      rw [stripPrefix_eq_some] at hshort
      have hlist : list = start ++ (rest ++ list.drop n) := by
        rw [← List.append_assoc, ← hshort, List.take_append_drop]
      rw [stripPrefix_eq_some.mpr hlist] at hstrip
      cases hstrip
  | some rest =>
    rw [stripPrefix_eq_some] at hstrip
    rw [Option.map_some, stripPrefix_eq_some, hstrip, List.take_append]
    simp [List.take_of_length_le h]

end Segments

/-- Carriage returns, with or without a line feed behind them, become line feeds. -/
def unify (afterCr : Bool) : Bytes → Bytes
  | [] => []
  | b :: rest =>
    if b = lf ∧ afterCr = true then unify false rest
    else if b = cr then lf :: unify true rest
    else b :: unify false rest

/-- One byte order mark at the start of the stream is not part of it. -/
def dropMark (bytes : Bytes) : Bytes := (stripPrefix byteOrderMark bytes).getD bytes

/-- The complete lines of a stream. -/
def lines (bytes : Bytes) : List Bytes := segments lf [] (unify false bytes)

/-- The complete blocks of a stream, as their lines. -/
def blocks (bytes : Bytes) : List (List Bytes) := segments [] [] (lines (dropMark bytes))

/-- The name and the value of a line; one space behind the colon is not part of the value. -/
def field (line : Bytes) : Bytes × Bytes :=
  let name := line.takeWhile fun b => decide (b ≠ colon)
  match line.drop name.length with
  | [] => (name, [])
  | _ :: value => (name, (stripPrefix [space] value).getD value)

/-- The values of the fields with one name. -/
def values (name : Bytes) (block : List Bytes) : List Bytes :=
  ((block.map field).filter fun entry => decide (entry.1 = name)).map Prod.snd

/-- The data of a block that has any: the values, one a line. -/
def data (block : List Bytes) : Option Bytes :=
  match values (ascii "data") block with
  | [] => none
  | first :: others => some (List.intercalate [lf] (first :: others))

/-- The data of the events that a stream dispatches, in order. -/
def dispatched (bytes : Bytes) : List Bytes := (blocks bytes).filterMap data

/-- The event type that a block names last. -/
def lastEvent (block : List Bytes) : Option Bytes := (values (ascii "event") block).getLast?

section Lines

variable {bytes rest line : Bytes} {before : Bytes} {x : UInt8}

theorem mem_first_segment {others : List Bytes} {first : Bytes}
    (h : segments lf before bytes = first :: others) :
    ∃ tail, before ++ bytes = first ++ lf :: tail := by
  induction bytes generalizing before with
  | nil => cases h
  | cons b rest ih =>
    by_cases hb : b = lf
    · simp only [segments, hb, if_true, List.cons.injEq] at h
      exact ⟨rest, by rw [h.1, hb]⟩
    · simp only [segments, hb, if_false] at h
      obtain ⟨tail, htail⟩ := ih h
      exact ⟨tail, by rw [← htail]; simp⟩

theorem unify_cons (h : x ≠ lf) (h' : x ≠ cr) : unify false (x :: rest) = x :: unify false rest := by
  simp [unify, h, h']

theorem eq_of_unify {tail : Bytes} (h : x ≠ lf) (hunify : unify false bytes = x :: tail) :
    ∃ rest, bytes = x :: rest ∧ unify false rest = tail := by
  cases bytes with
  | nil => cases hunify
  | cons b rest =>
    by_cases hcr : b = cr
    · have hne : ¬cr = lf := by decide
      simp only [unify, hcr, hne, false_and, if_false, if_true, List.cons.injEq] at hunify
      exact absurd hunify.1.symm h
    · simp only [unify, Bool.false_eq_true, and_false, if_false, hcr, List.cons.injEq] at hunify
      exact ⟨rest, by rw [hunify.1], hunify.2⟩

/-- The first line with its byte order mark dropped. -/
def markFirst (first : Bool) : List Bytes → List Bytes
  | [] => []
  | line :: others => (if first then dropMark line else line) :: others

@[simp] theorem markFirst_false (ls : List Bytes) : markFirst false ls = ls := by
  cases ls <;> rfl

theorem dropMark_append : dropMark (byteOrderMark ++ rest) = rest := by
  rw [dropMark, stripPrefix_eq_some.mpr rfl, Option.getD_some]

theorem mark_bytes {x : UInt8} (h : x ∈ byteOrderMark) : x ≠ lf ∧ x ≠ cr := by
  simp only [byteOrderMark, List.mem_cons, List.not_mem_nil, or_false] at h
  obtain rfl | rfl | rfl := h <;> exact ⟨by decide, by decide⟩

theorem unify_mark : unify false (byteOrderMark ++ rest) = byteOrderMark ++ unify false rest := by
  have h : ∀ x ∈ byteOrderMark, x ≠ lf ∧ x ≠ cr := fun _ => mark_bytes
  simp only [byteOrderMark, List.mem_cons, List.not_mem_nil, or_false, forall_eq_or_imp,
    forall_eq] at h
  obtain ⟨⟨h₁, h₁'⟩, ⟨h₂, h₂'⟩, h₃, h₃'⟩ := h
  simp only [byteOrderMark, List.cons_append, List.nil_append, unify_cons h₁ h₁',
    unify_cons h₂ h₂', unify_cons h₃ h₃']

theorem unify_starts_mark {tail : Bytes} (h : unify false bytes = byteOrderMark ++ tail) :
    ∃ rest, bytes = byteOrderMark ++ rest := by
  obtain ⟨rest₁, rfl, h₁⟩ := eq_of_unify (by decide) h
  obtain ⟨rest₂, rfl, h₂⟩ := eq_of_unify (by decide) h₁
  obtain ⟨rest₃, rfl, h₃⟩ := eq_of_unify (by decide) h₂
  exact ⟨rest₃, rfl⟩

/-- The mark at the start of the stream is the mark at the start of its first line. -/
theorem lines_dropMark (bytes : Bytes) :
    lines (dropMark bytes) = markFirst true (segments lf [] (unify false bytes)) := by
  cases hmark : stripPrefix byteOrderMark bytes with
  | some rest =>
    rw [stripPrefix_eq_some] at hmark
    subst hmark
    have hfirst : segments lf [] (byteOrderMark ++ unify false rest) =
        segments lf (byteOrderMark ++ []) (unify false rest) := by
      have h : ∀ x ∈ byteOrderMark, x ≠ lf := fun _ hx => (mark_bytes hx).1
      simp only [byteOrderMark, List.mem_cons, List.not_mem_nil, or_false, forall_eq_or_imp,
        forall_eq] at h
      simp [byteOrderMark, segments, h]
    rw [dropMark_append, unify_mark, hfirst, segments_append, lines]
    cases segments lf [] (unify false rest) with
    | nil => rfl
    | cons first others => simp only [markFirst, if_true, dropMark_append]
  | none =>
    have hsame : dropMark bytes = bytes := by rw [dropMark, hmark, Option.getD_none]
    rw [hsame, lines]
    cases hlines : segments lf [] (unify false bytes) with
    | nil => rfl
    | cons first others =>
      have hfirst : dropMark first = first := by
        rw [dropMark]
        cases hstrip : stripPrefix byteOrderMark first with
        | none => rfl
        | some tail =>
          rw [stripPrefix_eq_some] at hstrip
          obtain ⟨behind, hbehind⟩ := mem_first_segment hlines
          rw [List.nil_append, hstrip, List.append_assoc] at hbehind
          obtain ⟨rest, hrest⟩ := unify_starts_mark hbehind
          rw [stripPrefix_eq_some.mpr hrest] at hmark
          cases hmark
      simp only [markFirst, if_true, hfirst]

end Lines

section Fields

variable {name line value : Bytes} {block : List Bytes}

/-- A line that starts with a name and a colon is a field of that name. -/
theorem field_of_colon (hname : colon ∉ name) :
    field (name ++ colon :: value) = (name, (stripPrefix [space] value).getD value) := by
  have htake : (name ++ colon :: value).takeWhile (fun b => decide (b ≠ colon)) = name := by
    rw [List.takeWhile_append_of_pos]
    · simp
    · intro b hb
      have hne : b ≠ colon := fun heq => hname (heq ▸ hb)
      simpa using hne
  simp only [field, htake, List.drop_left]

theorem field_of_bare (hname : colon ∉ name) : field name = (name, []) := by
  have htake : name.takeWhile (fun b => decide (b ≠ colon)) = name := by
    rw [List.takeWhile_eq_self_iff]
    intro b hb
    have hne : b ≠ colon := fun heq => hname (heq ▸ hb)
    simpa using hne
  simp only [field, htake, List.drop_length]

/-- Every line is its name, or its name, a colon and more. -/
theorem line_cases (line : Bytes) :
    ∃ name, colon ∉ name ∧ (line = name ∨ ∃ value, line = name ++ colon :: value) := by
  induction line with
  | nil => exact ⟨[], by simp, .inl rfl⟩
  | cons b rest ih =>
    by_cases hb : b = colon
    · exact ⟨[], by simp, .inr ⟨rest, by rw [hb]; rfl⟩⟩
    · obtain ⟨name, hname, hrest⟩ := ih
      have hcons : colon ∉ b :: name := by
        simp only [List.mem_cons, not_or]
        exact ⟨fun heq => hb heq.symm, hname⟩
      obtain rfl | ⟨value, rfl⟩ := hrest
      · exact ⟨_, hcons, .inl rfl⟩
      · exact ⟨_, hcons, .inr ⟨value, rfl⟩⟩

theorem field_name_iff (hname : colon ∉ name) :
    (field line).1 = name ↔ line = name ∨ ∃ value, line = name ++ colon :: value := by
  constructor
  · intro h
    obtain ⟨other, hother, hline⟩ := line_cases line
    have heq : other = name := by
      obtain rfl | ⟨value, rfl⟩ := hline
      · rw [← h, field_of_bare hother]
      · rw [← h, field_of_colon hother]
    exact heq ▸ hline
  · rintro (rfl | ⟨value, rfl⟩)
    · rw [field_of_bare hname]
    · rw [field_of_colon hname]

/-- Dropping the space in front of a value does not hide an inequality behind a cut. -/
theorem value_take_iff {target : Bytes} {n : Nat} (h : target.length + 1 < n) :
    (stripPrefix [space] (value.take n)).getD (value.take n) = target ↔
      (stripPrefix [space] value).getD value = target := by
  have hone : [space].length = 1 := rfl
  rw [stripPrefix_take (by omega)]
  cases stripPrefix [space] value with
  | none => exact take_eq_iff (by omega)
  | some rest => exact take_eq_iff (by omega)

theorem values_append (name : Bytes) (block : List Bytes) (line : Bytes) :
    values name (block ++ [line]) =
      values name block ++ if (field line).1 = name then [(field line).2] else [] := by
  by_cases h : (field line).1 = name <;> simp [values, h]

/-- Data without a line feed is the one value of its block. -/
theorem data_eq_some {target : Bytes} (htarget : lf ∉ target) :
    data block = some target ↔ values (ascii "data") block = [target] := by
  rw [data]
  cases values (ascii "data") block with
  | nil => simp
  | cons first others =>
    cases others with
    | nil => simp [List.intercalate]
    | cons second others =>
      constructor
      · intro h
        simp only [List.intercalate, List.intersperse, List.flatten_cons, Option.some.injEq] at h
        exact absurd (h ▸ by simp) htarget
      · intro h
        simp at h

end Fields

end EventStream
