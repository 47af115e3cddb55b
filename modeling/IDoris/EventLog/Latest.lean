import Mathlib.Data.List.Dedup
import Mathlib.Data.List.MinMax
import Mathlib.Data.Prod.Lex
import Mathlib.Data.String.Basic
import IDoris.EventLog.History
import IDoris.Library.Paging

/-!
# The latest events of a type

The query asks for the rows that no later row supersedes. Its answer is the latest row of each
record, filtered after it was chosen.
-/
namespace EventLog

open Bounded Json Transaction

section Query

/-- `NOT EXISTS` a later row of the record and the type. -/
def isLatest (rows : List RawEvent) (raw : RawEvent) : Bool :=
  rows.all fun later => !(later.tenantId = raw.tenantId && later.recordId = raw.recordId &&
    later.eventType = raw.eventType && raw.sequence < later.sequence)

/-- `ORDER BY ts_utc_ms, record_id, sequence`. -/
def timeOrder (raw : RawEvent) : Int ×ₗ String ×ₗ Nat :=
  toLex (raw.tsUtcMs.val, toLex (raw.recordId, raw.sequence))

variable {N : Type} (codec : Codec N)

def eventsForTenantType (scope : Option String) (eventType : EventType) (query : EventLogQuery)
    (log : Log) : Except EventLogError (List (EventLogEvent N)) := do
  let scope ← requiredScope scope
  match query.recordId with
  | some recordId => validateRecordId recordId
  | none => pure ()
  let limit ← orRefuse (I64.checked query.limit) .invalidLimit
  refuseIf (limit.val ≤ 0) .invalidLimit
  ((Paging.inOrder timeOrder (log.rows.filter fun raw =>
    raw.tenantId = scope ∧ raw.eventType = eventType.asStr ∧
      query.selects raw.tsUtcMs raw.recordId = true ∧ isLatest log.rows raw = true)).take
        limit.val.toNat).mapM (decode codec)

end Query

section Specification

/-- The records of a tenant. -/
def recordsOf (tenant : String) (rows : List RawEvent) : List String :=
  ((rows.filter fun raw => raw.tenantId = tenant).map RawEvent.recordId).dedup

/-- The row of a record and a type with the highest sequence. -/
def latestOf (tenant : String) (eventType : EventType) (rows : List RawEvent) (recordId : String) :
    Option RawEvent :=
  (rows.filter fun raw => raw.tenantId = tenant ∧ raw.recordId = recordId ∧
    raw.eventType = eventType.asStr).argmax RawEvent.sequence

/-- The latest row of each record, then those in the range of the query, in the order of their
time, as many as the limit allows. -/
def latestEvents (tenant : String) (eventType : EventType) (query : EventLogQuery)
    (rows : List RawEvent) : List RawEvent :=
  (Paging.inOrder timeOrder (((recordsOf tenant rows).filterMap
    (latestOf tenant eventType rows)).filter fun raw =>
      query.selects raw.tsUtcMs raw.recordId = true)).take query.limit

variable {tenant recordId : String} {eventType : EventType} {rows : List RawEvent} {raw : RawEvent}

theorem latestOf_eq_some (h : latestOf tenant eventType rows recordId = some raw) :
    raw ∈ rows ∧ raw.tenantId = tenant ∧ raw.recordId = recordId ∧
      raw.eventType = eventType.asStr := by
  have hmem := List.argmax_mem h
  rw [List.mem_filter, decide_eq_true_eq] at hmem
  exact hmem

/-- A row is the latest of its record exactly when no later row supersedes it. -/
theorem latestOf_iff (hkeys : (rows.map RawEvent.sequence).Nodup) (hraw : raw ∈ rows)
    (htenant : raw.tenantId = tenant) (htype : raw.eventType = eventType.asStr) :
    latestOf tenant eventType rows raw.recordId = some raw ↔ isLatest rows raw = true := by
  have hcandidate : raw ∈ rows.filter fun other => other.tenantId = tenant ∧
      other.recordId = raw.recordId ∧ other.eventType = eventType.asStr := by
    rw [List.mem_filter, decide_eq_true_eq]
    exact ⟨hraw, htenant, rfl, htype⟩
  constructor
  · intro hlatest
    rw [isLatest, List.all_eq_true]
    intro later hlater
    by_contra hsupersedes
    simp only [Bool.not_eq_true', Bool.and_eq_true, decide_eq_true_eq,
      Bool.not_eq_false] at hsupersedes
    obtain ⟨⟨⟨hsame, hrecord⟩, hkind⟩, hlt⟩ := hsupersedes
    have hmem : later ∈ rows.filter fun other => other.tenantId = tenant ∧
        other.recordId = raw.recordId ∧ other.eventType = eventType.asStr := by
      rw [List.mem_filter, decide_eq_true_eq]
      exact ⟨hlater, hsame.trans htenant, hrecord, hkind.trans htype⟩
    exact absurd (List.le_of_mem_argmax hmem hlatest) (not_le.mpr hlt)
  · intro hlatest
    obtain ⟨found, hfound⟩ : ∃ found,
        latestOf tenant eventType rows raw.recordId = some found := by
      rw [← Option.isSome_iff_exists, Option.isSome_iff_ne_none, latestOf, Ne,
        List.argmax_eq_none]
      exact List.ne_nil_of_mem hcandidate
    obtain ⟨hmem, hsame, hrecord, hkind⟩ := latestOf_eq_some hfound
    have hle : raw.sequence ≤ found.sequence := List.le_of_mem_argmax hcandidate hfound
    have hnot := List.all_eq_true.mp hlatest found hmem
    simp only [hsame, htenant, hrecord, hkind, htype, decide_true, Bool.true_and, Bool.not_eq_true',
      decide_eq_false_iff_not, not_lt] at hnot
    have hsequence : found.sequence = raw.sequence := le_antisymm hnot hle
    rw [hfound, List.inj_on_of_nodup_map hkeys hmem hraw hsequence]

/-- Rows of a table differ in the time order, because they differ in their sequence. -/
theorem timeOrder_nodup {selected : List RawEvent} (h : (selected.map RawEvent.sequence).Nodup) :
    (selected.map timeOrder).Nodup := by
  refine List.Nodup.of_map (fun key => (ofLex (ofLex key).2).2) ?_
  rw [List.map_map]
  exact h

theorem filterMap_latestOf_nodup (hkeys : (rows.map RawEvent.sequence).Nodup) :
    (((recordsOf tenant rows).filterMap (latestOf tenant eventType rows)).map
      RawEvent.sequence).Nodup := by
  refine List.Nodup.map_on ?_ (List.Nodup.filterMap ?_ (List.nodup_dedup _))
  · intro raw hraw other hother hsequence
    obtain ⟨record, -, hlatest⟩ := List.mem_filterMap.mp hraw
    obtain ⟨record', -, hlatest'⟩ := List.mem_filterMap.mp hother
    exact List.inj_on_of_nodup_map hkeys (latestOf_eq_some hlatest).1
      (latestOf_eq_some hlatest').1 hsequence
  · intro record record' raw hlatest hlatest'
    rw [← (latestOf_eq_some hlatest).2.2.1, ← (latestOf_eq_some hlatest').2.2.1]

theorem mem_filterMap_latestOf (hkeys : (rows.map RawEvent.sequence).Nodup) :
    raw ∈ (recordsOf tenant rows).filterMap (latestOf tenant eventType rows) ↔
      raw ∈ rows ∧ raw.tenantId = tenant ∧ raw.eventType = eventType.asStr ∧
        isLatest rows raw = true := by
  rw [List.mem_filterMap]
  constructor
  · rintro ⟨record, -, hlatest⟩
    obtain ⟨hraw, htenant, rfl, htype⟩ := latestOf_eq_some hlatest
    exact ⟨hraw, htenant, htype, (latestOf_iff hkeys hraw htenant htype).mp hlatest⟩
  · rintro ⟨hraw, htenant, htype, hlatest⟩
    refine ⟨raw.recordId, ?_, (latestOf_iff hkeys hraw htenant htype).mpr hlatest⟩
    rw [recordsOf, List.mem_dedup, List.mem_map]
    exact ⟨raw, List.mem_filter.mpr ⟨hraw, decide_eq_true htenant⟩, rfl⟩

/-- Choosing the rows that nothing supersedes and filtering at once is choosing the latest rows
first. -/
theorem inOrder_latest (hkeys : (rows.map RawEvent.sequence).Nodup) (query : EventLogQuery) :
    Paging.inOrder timeOrder (rows.filter fun raw =>
        raw.tenantId = tenant ∧ raw.eventType = eventType.asStr ∧
          query.selects raw.tsUtcMs raw.recordId = true ∧ isLatest rows raw = true) =
      Paging.inOrder timeOrder (((recordsOf tenant rows).filterMap
        (latestOf tenant eventType rows)).filter fun raw =>
          query.selects raw.tsUtcMs raw.recordId = true) := by
  refine Paging.inOrder_eq (timeOrder_nodup ?_) (timeOrder_nodup ?_) fun raw => ?_
  · exact hkeys.sublist (List.filter_sublist.map RawEvent.sequence)
  · exact (filterMap_latestOf_nodup hkeys).sublist (List.filter_sublist.map RawEvent.sequence)
  · simp only [List.mem_filter, mem_filterMap_latestOf hkeys, decide_eq_true_eq]
    tauto

/-- Whatever the log holds, the query answers the latest events of the type. -/
theorem eventsForTenantType_eq {N : Type} (codec : Codec N) (log : Log)
    (hkeys : (log.rows.map RawEvent.sequence).Nodup) {scope : Option String} (tenant : String)
    (eventType : EventType) (query : EventLogQuery) (hscope : requiredScope scope = .ok tenant)
    (hrecord : ∀ recordId, query.recordId = some recordId → validateRecordId recordId = .ok ())
    (hpositive : 0 < query.limit) (hfits : query.limit < 2 ^ 63) :
    eventsForTenantType codec scope eventType query log =
      (latestEvents tenant eventType query log.rows).mapM (decode codec) := by
  obtain ⟨limit, hlimit, hval⟩ := I64.checked_natCast hfits
  have hnot : ¬limit.val ≤ 0 := by omega
  have hnat : limit.val.toNat = query.limit := by omega
  unfold eventsForTenantType latestEvents
  rw [hlimit, ← inOrder_latest hkeys]
  clear hlimit
  cases hwanted : query.recordId with
  | none => simp only [hscope, bind, Except.bind, orRefuse, refuseIf, if_neg hnot, hnat]
  | some recordId =>
    simp only [hscope, hrecord recordId hwanted, bind, Except.bind, orRefuse, refuseIf,
      if_neg hnot, hnat]

end Specification

section Samples

def sampleIds : List String :=
  [sampleEvent.eventId, "1c62c2c1-7e40-4d4f-9b4c-4e3f2e2b3c4d",
    "2d73d3d2-8f51-4e5a-ac5d-5f403f3c4d5e"]

/-- A library that knows three ids. -/
def threeIds : Codec Nat :=
  { sampleCodec with uuidVersion := fun value => if value ∈ sampleIds then some 4 else none }

/-- Three rows of one record: a later time is superseded by an earlier one. -/
def sampleLog : Log where
  rows :=
    [encode threeIds "tenant" 1 sampleEvent,
      encode threeIds "tenant" 2
        { sampleEvent with
          eventId := "1c62c2c1-7e40-4d4f-9b4c-4e3f2e2b3c4d"
          tsUtcMs := I64.lit 9 },
      encode threeIds "tenant" 3
        { sampleEvent with
          eventId := "2d73d3d2-8f51-4e5a-ac5d-5f403f3c4d5e"
          tsUtcMs := I64.lit 3 }]
  assigned := 3

def sampleQuery : EventLogQuery := ⟨some (I64.lit 2), none, none, 5⟩

/-- The query answers the third row. -/
theorem eventsForTenantType_eq_sample :
    eventsForTenantType threeIds (some "tenant") .completed sampleQuery sampleLog =
        (latestEvents "tenant" .completed sampleQuery sampleLog.rows).mapM (decode threeIds) ∧
      (eventsForTenantType threeIds (some "tenant") .completed sampleQuery sampleLog).toOption.map
        (List.map EventLogEvent.sequence) = some [3] :=
  ⟨eventsForTenantType_eq threeIds sampleLog (by decide) "tenant" .completed sampleQuery
    (by decide) nofun (by decide) (by decide), by decide +kernel⟩

/-- Of a record whose last row is too early nothing is answered, although an earlier row is not. -/
example : (eventsForTenantType threeIds (some "tenant") .completed
    { sampleQuery with fromTsUtcMs := some (I64.lit 5) } sampleLog).toOption = some [] := by
  decide +kernel

end Samples

end EventLog
