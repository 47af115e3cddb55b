import Mathlib.Data.List.Dedup
import IDoris.Backfill.Legacy
import IDoris.EventLog.History
import IDoris.Library.Loop

/-!
# The backfill is exactly once

A start appends a record only when the log has no audit for it, and a start that completes leaves
an audit for every record that the log takes.
-/
namespace Backfill

open Bounded Json EventLog Transaction
open Text (isBlank)
open Effectful (Keeps Returns run_bind run_get run_pure run_throw)
open Relation (ReflTransGen)

section Appends

variable {N : Type} [DecidableEq N] {codec : Codec N} {log : Log} {tenant : String}
  {event : NewEvent N}

/-- An append leaves the log alone or adds the row of the event. -/
theorem append_cases (codec : Codec N) (tenant : String) (event : NewEvent N) (log : Log) :
    (append codec (some tenant) event log).2 = log ∨
      event.tenantId = tenant ∧ ∃ sequence, append codec (some tenant) event log =
        (.ok sequence, ⟨log.rows ++ [encode codec tenant sequence event], sequence⟩) := by
  rcases happend : append codec (some tenant) event log with ⟨answer, log'⟩
  obtain hbody | ⟨-, -, -, hsame⟩ := close_cases happend
  · simp only [bind_eq_ok] at hbody
    obtain ⟨scope, hscope, _, hevent, found, -, hbody⟩ := hbody
    obtain rfl := Option.some.inj (requiredScope_eq_ok hscope)
    cases found with
    | some existing =>
      simp only [bind_eq_ok] at hbody
      obtain ⟨-, -, hbody⟩ := hbody
      exact .inl (Prod.mk.inj (Except.ok.inj hbody)).2.symm
    | none =>
      simp only [bind_eq_ok, insertEvent] at hbody
      obtain ⟨next, hinsert, hbody⟩ := hbody
      split at hinsert
      · cases hinsert
      · obtain rfl := Except.ok.inj hinsert
        obtain ⟨rfl, rfl⟩ := Prod.mk.inj (Except.ok.inj hbody)
        exact .inr ⟨(validateEvent_eq_ok.mp hevent).1, _, rfl⟩
  · exact .inl hsame

/-- The log has the audit of a record. -/
def Audited (rows : List RawEvent) (tenant recordId : String) : Prop :=
  ∃ raw ∈ rows, raw.tenantId = tenant ∧ raw.recordId = recordId ∧
    raw.eventType = EventType.auditFinalized.asStr

omit [DecidableEq N] in
theorem decode_eventType {raw : RawEvent} {stored : EventLogEvent N}
    (h : decode codec raw = .ok stored) :
    EventType.parse raw.eventType = .ok stored.event.eventType := by
  simp only [decode, bind_eq_ok] at h
  obtain ⟨eventType, hparse, metadata, -, -, -, hmade⟩ := h
  rw [← Except.ok.inj hmade]
  exact hparse

theorem asStr_of_parse {value : String} {eventType : EventType}
    (h : EventType.parse value = .ok eventType) : eventType.asStr = value := by
  have hfound := orRefuse_eq_ok.mp h
  simpa using List.find?_some hfound

omit [DecidableEq N] in
/-- The check finds an audit exactly when the log has one. -/
theorem existing_audited {recordId : String} {existing : List (EventLogEvent N)}
    (h : eventsForRecord codec (some tenant) recordId log = .ok existing) :
    (existing.any fun stored => stored.event.eventType = .auditFinalized) = true ↔
      Audited log.rows tenant recordId := by
  simp only [eventsForRecord, bind_eq_ok] at h
  obtain ⟨scope, hscope, -, -, hread⟩ := h
  obtain rfl := Option.some.inj (requiredScope_eq_ok hscope)
  have hpairs := Loop.mapM_outcome (Loop.Outcome.except _) hread
  have hrow : ∀ raw, raw ∈ orderBySequence (log.rows.filter fun raw =>
      raw.tenantId = tenant ∧ raw.recordId = recordId) ↔
        raw ∈ log.rows ∧ raw.tenantId = tenant ∧ raw.recordId = recordId := by
    intro raw
    rw [orderBySequence, List.mem_insertionSort, List.mem_filter, decide_eq_true_eq]
  rw [List.any_eq_true]
  constructor
  · rintro ⟨stored, hstored, htype⟩
    obtain ⟨raw, hraw, hdecode⟩ := Loop.forall₂_right hpairs hstored
    obtain ⟨hmem, htenant, hrecord⟩ := (hrow raw).mp hraw
    have hparse := decode_eventType hdecode
    rw [of_decide_eq_true htype] at hparse
    exact ⟨raw, hmem, htenant, hrecord, (asStr_of_parse hparse).symm⟩
  · rintro ⟨raw, hmem, htenant, hrecord, htype⟩
    obtain ⟨stored, hstored, hdecode⟩ := Loop.forall₂_left hpairs
      ((hrow raw).mpr ⟨hmem, htenant, hrecord⟩)
    have hparse := decode_eventType hdecode
    rw [htype, EventType.parse_asStr] at hparse
    exact ⟨stored, hstored, decide_eq_true (Except.ok.inj hparse).symm⟩

end Appends

section Visits

variable {N : Type} [DecidableEq N] {libraries : Libraries N} {tenant : String}
  {report : AuditMigrationReport} {record : TenantRecord N} {w : World}

omit [DecidableEq N] in
theorem run_newUuid : Effectful.run (newUuid libraries) w =
    (.ok (libraries.newUuid w.uuids), { w with uuids := w.uuids + 1 }) := rfl

theorem run_appendEvent (event : NewEvent N) :
    Effectful.run (appendEvent libraries tenant event) w =
      if w.left = some 0 then (.error .interrupted, w)
      else (.ok (append libraries.toCodec (some tenant) event w.log).1,
        { w with
          log := (append libraries.toCodec (some tenant) event w.log).2
          left := w.left.map (· - 1) }) := by
  rw [appendEvent, run_bind, run_get]
  dsimp only
  split
  · rfl
  · rfl

/-- What a run does with a record. -/
inductive Visit (libraries : Libraries N) (tenant : String) (record : TenantRecord N) (w : World) :
    Except Stop AuditMigrationReport × World → Prop where
  | retained (h : compatible tenant record = false ∨ timestamp libraries record.payload = none)
      (report : AuditMigrationReport) : Visit libraries tenant record w (.ok report, w)
  | stopped (stop : Stop) (h : stop ≠ .endless) :
      Visit libraries tenant record w (.error stop, { w with uuids := w.uuids + 1 })
  | found (h : Audited w.log.rows tenant record.recordId) (report : AuditMigrationReport) :
      Visit libraries tenant record w (.ok report, { w with uuids := w.uuids + 1 })
  | tried (hnew : ¬Audited w.log.rows tenant record.recordId) (event : NewEvent N) (tsUtcMs : I64)
      (htimestamp : timestamp libraries record.payload = some tsUtcMs)
      (hevent : event = finalizedEvent (libraries.newUuid w.uuids) tsUtcMs record)
      (left : Option Nat) (result : Except Stop AuditMigrationReport)
      (hends : result ≠ .error .endless)
      (hresult : result.toBool = true → ∀ error,
        (append libraries.toCodec (some tenant) event w.log).1 = .error error →
          incompatible error = true) :
      Visit libraries tenant record w (result,
        { w with
          log := (append libraries.toCodec (some tenant) event w.log).2
          uuids := w.uuids + 1
          left := left })

theorem backfillRecord_visit : Visit libraries tenant record w
    (Effectful.run (backfillRecord libraries tenant report record) w) := by
  unfold backfillRecord
  split
  · next h => exact .retained (.inl (by simpa using h)) _
  · unfold migratedAuditEvent
    cases htimestamp : timestamp libraries record.payload with
    | none => exact .retained (.inr htimestamp) _
    | some tsUtcMs =>
      simp only [run_bind, run_newUuid, run_pure, run_get]
      cases hcheck : eventsForRecord libraries.toCodec (some tenant) record.recordId w.log with
      | error e =>
        simp only [orFail, run_throw]
        exact .stopped _ (by rintro ⟨⟩)
      | ok existing =>
        simp only [orFail, run_pure]
        split
        · next hfound => exact .found ((existing_audited hcheck).mp hfound) _
        · next hnone =>
          rw [run_bind, run_appendEvent]
          dsimp only
          by_cases hleft : w.left = some 0
          · rw [if_pos hleft]
            exact .stopped _ (by rintro ⟨⟩)
          · rw [if_neg hleft]
            have hnew : ¬Audited w.log.rows tenant record.recordId :=
              fun haudited => hnone ((existing_audited hcheck).mpr haudited)
            dsimp only
            cases hanswer : (append libraries.toCodec (some tenant)
                (finalizedEvent (libraries.newUuid w.uuids) tsUtcMs record) w.log).1 with
            | ok sequence =>
              refine .tried hnew _ tsUtcMs htimestamp rfl _ _ (by rintro ⟨⟩) fun _ error herror => ?_
              rw [hanswer] at herror
              cases herror
            | error error =>
              dsimp only
              split
              · next hincompatible =>
                refine .tried hnew _ tsUtcMs htimestamp rfl _ _ (by rintro ⟨⟩) fun _ error' herror => ?_
                rw [hanswer] at herror
                cases herror
                exact hincompatible
              · exact .tried hnew _ tsUtcMs htimestamp rfl _ _ (by rintro ⟨⟩) (by rintro ⟨⟩)

end Visits

section Steps

variable {N : Type} [DecidableEq N] {libraries : Libraries N} {tenant : String}
  {report : AuditMigrationReport} {record : TenantRecord N} {w w' : World}

/-- What a run does to the world, one change at a time. -/
inductive Step (libraries : Libraries N) : World → World → Prop where
  | minted (w : World) : Step libraries w { w with uuids := w.uuids + 1 }
  | tried (w : World) (left : Option Nat) : Step libraries w { w with left }
  | appended (w : World) (raw : RawEvent) (sequence : Nat)
      (haudit : raw.eventType = EventType.auditFinalized.asStr)
      (hnew : ¬Audited w.log.rows raw.tenantId raw.recordId)
      (hid : ∃ n < w.uuids, raw.eventId = libraries.newUuid n)
      (hsource : ∃ old ∈ w.legacy.auditsOf raw.tenantId, old.recordId = raw.recordId) :
      Step libraries w { w with log := ⟨w.log.rows ++ [raw], sequence⟩ }

/-- The identifiers to come are of version 4, distinct, and in no row of the log. -/
structure Fresh (libraries : Libraries N) (w : World) : Prop where
  version : ∀ n, libraries.uuidVersion (libraries.newUuid n) = some 4
  distinct : Function.Injective libraries.newUuid
  unused : ∀ raw ∈ w.log.rows, ∀ n, w.uuids ≤ n → raw.eventId ≠ libraries.newUuid n

omit [DecidableEq N] in
theorem legacy_step {legacy : TenantStore} (h : w.legacy = legacy) (hstep : Step libraries w w') :
    w'.legacy = legacy := by
  cases hstep <;> exact h

omit [DecidableEq N] in
theorem Fresh.step (h : Fresh libraries w) (hstep : Step libraries w w') : Fresh libraries w' := by
  cases hstep with
  | minted => exact ⟨h.version, h.distinct, fun raw hraw n hn => h.unused raw hraw n (by
      have : w.uuids + 1 ≤ n := hn
      omega)⟩
  | tried left => exact ⟨h.version, h.distinct, h.unused⟩
  | appended raw sequence haudit hnew hid hsource =>
    refine ⟨h.version, h.distinct, fun old hold n hn => ?_⟩
    obtain hold | hold := List.mem_append.mp hold
    · exact h.unused old hold n hn
    · obtain rfl := List.mem_singleton.mp hold
      obtain ⟨k, hk, heq⟩ := hid
      rw [heq]
      intro hsame
      have hkn := h.distinct hsame
      have : w.uuids ≤ n := hn
      omega

omit [DecidableEq N] in
theorem audited_step {recordId : String} (h : Audited w.log.rows tenant recordId)
    (hstep : Step libraries w w') : Audited w'.log.rows tenant recordId := by
  obtain ⟨raw, hraw, hfields⟩ := h
  cases hstep with
  | minted | tried => exact ⟨raw, hraw, hfields⟩
  | appended new => exact ⟨raw, List.mem_append_left _ hraw, hfields⟩

omit [DecidableEq N] in
theorem audited_steps {recordId : String} (hsteps : ReflTransGen (Step libraries) w w')
    (h : Audited w.log.rows tenant recordId) : Audited w'.log.rows tenant recordId :=
  Effectful.stable_steps (P := fun w => Audited w.log.rows tenant recordId)
    (fun _ _ => audited_step) hsteps h

variable {legacy : TenantStore}

/-- What the loops of a run rely on. -/
def Ready (libraries : Libraries N) (legacy : TenantStore) (w : World) : Prop :=
  w.legacy = legacy ∧ Fresh libraries w

omit [DecidableEq N] in
theorem ready_stable (libraries : Libraries N) (legacy : TenantStore) : ∀ w w',
    Ready libraries legacy w → Step libraries w w' → Ready libraries legacy w' :=
  fun _ _ h hstep => ⟨legacy_step h.1 hstep, h.2.step hstep⟩

/-- A record of the old table is visited by steps. -/
theorem backfillRecord_keeps
    (hsource : ∃ old ∈ legacy.auditsOf tenant, old.recordId = record.recordId) :
    Keeps (Ready libraries legacy) (Step libraries)
      (backfillRecord libraries tenant report record) := by
  intro w ⟨hlegacy, _⟩
  have hvisit : Visit libraries tenant record w
      (Effectful.run (backfillRecord libraries tenant report record) w) := backfillRecord_visit
  generalize Effectful.run (backfillRecord libraries tenant report record) w = result at hvisit ⊢
  cases hvisit with
  | retained => exact .refl
  | stopped | found => exact .single (.minted w)
  | tried hnew event tsUtcMs htimestamp hevent left result hends hresult =>
    obtain hsame | ⟨htenant, sequence, happend⟩ :=
      append_cases libraries.toCodec tenant event w.log
    · rw [hsame]
      exact .trans (.single (.minted w)) (.single (.tried _ left))
    · rw [happend]
      have hrecord : event.recordId = record.recordId := by rw [hevent]; rfl
      have hstep : Step libraries { w with uuids := w.uuids + 1 } { w with
          uuids := w.uuids + 1
          log := ⟨w.log.rows ++ [encode libraries.toCodec tenant sequence event], sequence⟩ } := by
        refine .appended { w with uuids := w.uuids + 1 }
          (encode libraries.toCodec tenant sequence event) sequence ?_ ?_ ?_ ?_
        · simp only [encode, hevent, finalizedEvent]
        · simp only [encode, hrecord]
          exact hnew
        · refine ⟨w.uuids, Nat.lt_succ_self _, ?_⟩
          simp only [encode, hevent, finalizedEvent]
        · simp only [encode, hrecord, hlegacy]
          exact hsource
      exact .trans (.single (.minted w)) (.trans (.single hstep) (.single (.tried _ left)))

end Steps

section Coverage

variable {N : Type} [DecidableEq N] {libraries : Libraries N} {tenant : String}
  {report report' : AuditMigrationReport} {record : TenantRecord N} {raw : RawRecord} {w w' : World}

theorem validateId_of_valid {value : String} (h : valid value = true) (field : String) :
    validateId field value = .ok () := by
  simp only [valid, Bool.and_eq_true, Bool.not_eq_true', decide_eq_true_eq] at h
  obtain ⟨⟨hblank, hlength⟩, hcontrol⟩ := h
  refine refuseIf_eq_ok.mpr ?_
  simp only [hblank, hcontrol, maxUtf16Units] at hlength ⊢
  simp [hlength]

theorem not_blank_of_valid {value : String} (h : valid value = true) : isBlank value = false := by
  simp only [valid, Bool.and_eq_true, Bool.not_eq_true'] at h
  exact h.1.1

theorem validateOptionalId_of_valid {value : Option String} (h : value.all valid = true)
    (field : String) : validateOptionalId field value = .ok () := by
  cases value with
  | none => rfl
  | some value => exact validateId_of_valid (by simpa using h) field

omit [DecidableEq N] in
theorem timestamp_nonneg {payload : Metadata N} {tsUtcMs : I64}
    (h : timestamp libraries payload = some tsUtcMs) : 0 ≤ tsUtcMs.val := by
  unfold timestamp at h
  split at h
  · obtain ⟨value, hvalue, rfl⟩ := Option.map_eq_some_iff.mp h
    obtain ⟨-, hrange⟩ := Option.filter_eq_some_iff.mp hvalue
    have hfloor : 0 ≤ ⌊value⌋ := Int.floor_nonneg.mpr (of_decide_eq_true hrange).1
    rw [I64.clamp_val]
    omega
  · cases h

omit [DecidableEq N] in
/-- The event of a record is one that the log takes, if its metadata is. -/
theorem finalizedEvent_valid {tsUtcMs : I64} {eventId : String}
    (hversion : libraries.uuidVersion eventId = some 4)
    (hcompatible : compatible tenant record = true) (htenant : record.tenantId = tenant)
    (htimestamp : timestamp libraries record.payload = some tsUtcMs)
    (hmetadata : validateMetadata (mappedMetadata record.payload) = .ok ()) :
    Valid libraries.toCodec (some tenant) (finalizedEvent eventId tsUtcMs record) := by
  simp only [compatible, Bool.and_eq_true] at hcompatible
  obtain ⟨⟨hscope, hrecord⟩, horigin⟩ := hcompatible
  have hrequest : (some (if valid record.requestId then record.requestId else record.recordId)).all
      valid = true := by
    split
    · next h => simpa using h
    · simpa using hrecord
  refine ⟨tenant, ?_, validateEvent_eq_ok.mpr ⟨htenant, ?_⟩⟩
  · simp only [requiredScope, bind_eq_ok, orRefuse_eq_ok]
    have hfound : (some tenant).filter (fun value => !isBlank value) = some tenant :=
      Option.filter_eq_some_iff.mpr ⟨rfl, by simp [not_blank_of_valid hscope]⟩
    exact ⟨tenant, hfound, (), validateId_of_valid hscope _, rfl⟩
  · have hnonneg := timestamp_nonneg htimestamp
    have hlate : ¬tsUtcMs.val < 0 := by omega
    simp [validateStoredEvent, finalizedEvent, hversion, htenant, validateId_of_valid hscope,
      not_blank_of_valid hrecord, validateId_of_valid hrecord, validateOptionalId_of_valid hrequest,
      validateOptionalId_of_valid horigin, hmetadata, hlate, refuseIf, bind, Except.bind]
    rfl

/-- A record that the log takes. -/
structure Eligible (libraries : Libraries N) (raw : RawRecord) : Prop where
  audit : raw.kind = .audit
  tenant : valid raw.tenantId = true
  record : valid raw.recordId = true
  origin : raw.originRecordId.all valid = true
  mapped : ∃ payload, libraries.fromJson raw.payload = some payload ∧
    (timestamp libraries payload).isSome = true ∧
    validateMetadata (mappedMetadata payload) = .ok ()

/-- A visit that returns leaves the record audited, if the log takes it. -/
theorem backfillRecord_covers (hfresh : Fresh libraries w)
    (hcompatible : compatible tenant record = true) (htenant : record.tenantId = tenant)
    (htimestamp : (timestamp libraries record.payload).isSome = true)
    (hmetadata : validateMetadata (mappedMetadata record.payload) = .ok ())
    (hreturns : Returns (backfillRecord libraries tenant report record) w report' w') :
    Audited w'.log.rows tenant record.recordId := by
  have hvisit : Visit libraries tenant record w
      (Effectful.run (backfillRecord libraries tenant report record) w) := backfillRecord_visit
  rw [show Effectful.run (backfillRecord libraries tenant report record) w = (.ok report', w')
    from hreturns] at hvisit
  cases hvisit with
  | retained hnot =>
    obtain hnot | hnot := hnot
    · rw [hcompatible] at hnot
      cases hnot
    · rw [hnot] at htimestamp
      cases htimestamp
  | found haudited => exact haudited
  | tried hnew event tsUtcMs hts hevent left hends hresult =>
    have hvalid : Valid libraries.toCodec (some tenant) event := by
      rw [hevent]
      exact finalizedEvent_valid (hfresh.version _) hcompatible htenant hts hmetadata
    have hunused : ∀ raw ∈ w.log.rows, raw.eventId ≠ event.eventId := by
      rw [hevent]
      exact fun raw hraw => hfresh.unused raw hraw w.uuids (Nat.le_refl _)
    have hload : loadById libraries.toCodec w.log event.eventId = .ok none := by
      have hnone : w.log.rows.find? (fun raw => raw.eventId = event.eventId) = none := by
        rw [List.find?_eq_none]
        exact fun raw hraw => by simpa using hunused raw hraw
      rw [loadById, hnone]
    rw [append_fresh hvalid hload hunused]
    have hkey : event.tenantId = tenant ∧ event.recordId = record.recordId ∧
        event.eventType = .auditFinalized := by
      rw [hevent]
      exact ⟨htenant, rfl, rfl⟩
    refine ⟨_, List.mem_append_right _ (List.mem_singleton_self _), hkey.1, hkey.2.1, ?_⟩
    simp only [encode, hkey.2.2]

variable {legacy : TenantStore} {batch : List (TenantRecord N)} {after : Option String} {fuel : Nat}

omit [DecidableEq N] in
/-- A batch is a page, record by record. -/
theorem auditMigrationBatch_eq_ok
    (h : auditMigrationBatch libraries legacy (some tenant) after 256 = .ok batch) :
    List.Forall₂ (fun raw record => rawToRecord libraries raw = .ok record)
      (Paging.page RawRecord.recordId (legacy.auditsOf tenant) after 256) batch := by
  simp only [auditMigrationBatch, bind_eq_ok, orRefuse_eq_ok] at h
  obtain ⟨scope, hscope, hpage⟩ := h
  obtain ⟨hsome, -⟩ := Option.filter_eq_some_iff.mp hscope
  obtain rfl := Option.some.inj hsome
  exact Loop.mapM_outcome (Loop.Outcome.except _) hpage

omit [DecidableEq N] in
theorem rawToRecord_eq_ok (h : rawToRecord libraries raw = .ok record) :
    record.tenantId = raw.tenantId ∧ record.recordId = raw.recordId ∧
      record.originRecordId = raw.originRecordId ∧
      libraries.fromJson raw.payload = some record.payload := by
  simp only [rawToRecord, bind_eq_ok, orRefuse_eq_ok] at h
  obtain ⟨payload, hpayload, hmade⟩ := h
  obtain rfl := Except.ok.inj hmade
  exact ⟨rfl, rfl, rfl, hpayload⟩

theorem auditsOf_unique (legacy : TenantStore) (tenant : String) :
    ((legacy.auditsOf tenant).map RawRecord.recordId).Nodup := by
  have hrows : legacy.rows.Nodup := List.Nodup.of_map _ legacy.keys
  have hmem : ∀ raw, raw ∈ legacy.auditsOf tenant ↔
      (raw ∈ legacy.rows ∧ raw.kind = .audit) ∧ raw.tenantId = tenant := by
    intro raw
    simp only [TenantStore.auditsOf, TenantStore.audits, List.mem_filter, decide_eq_true_eq]
  refine List.Nodup.map_on (fun a ha b hb hsame => ?_) ((hrows.filter _).filter _)
  obtain ⟨⟨ha, hkind⟩, htenant⟩ := (hmem a).mp ha
  obtain ⟨⟨hb, hkind'⟩, htenant'⟩ := (hmem b).mp hb
  refine List.inj_on_of_nodup_map legacy.keys ha hb ?_
  rw [hkind, hkind', htenant, htenant', hsame]

end Coverage

section Tenants

variable {N : Type} [DecidableEq N] {libraries : Libraries N} {tenant : String}
  {report report' : AuditMigrationReport} {w w' : World} {legacy : TenantStore}
  {after : Option String} {fuel : Nat} {batch : List (TenantRecord N)}

/-- A page of a tenant, then the pages behind it. -/
theorem run_backfillTenant :
    Effectful.run (backfillTenant libraries tenant (fuel + 1) after report) w =
      match auditMigrationBatch libraries w.legacy (some tenant) after 256 with
      | .error e => (.error (.failed (.batch tenant e)), w)
      | .ok batch => match batch.getLast? with
        | none => (.ok report, w)
        | some last => Effectful.run (batch.foldlM (backfillRecord libraries tenant) report >>=
            backfillTenant libraries tenant fuel (some last.recordId)) w := by
  rw [backfillTenant, Effectful.run_get_bind, run_bind]
  cases auditMigrationBatch libraries w.legacy (some tenant) after 256 with
  | error e => rfl
  | ok batch =>
    simp only [orFail, run_pure]
    cases batch.getLast? <;> rfl

omit [DecidableEq N] in
/-- The records of a page are those of the tenant's rows. -/
theorem batch_source (h : auditMigrationBatch libraries legacy (some tenant) after 256 = .ok batch)
    {record : TenantRecord N} (hrecord : record ∈ batch) :
    ∃ raw ∈ legacy.auditsOf tenant, rawToRecord libraries raw = .ok record := by
  obtain ⟨raw, hraw, hmade⟩ := Loop.forall₂_right (auditMigrationBatch_eq_ok h) hrecord
  exact ⟨raw, (Paging.mem_of_page hraw).1, hmade⟩

theorem batch_keeps (h : auditMigrationBatch libraries legacy (some tenant) after 256 = .ok batch)
    (report : AuditMigrationReport) : ∀ record ∈ batch, Keeps (Ready libraries legacy)
      (Step libraries) (backfillRecord libraries tenant report record) := by
  intro record hrecord
  obtain ⟨raw, hraw, hmade⟩ := batch_source h hrecord
  exact backfillRecord_keeps ⟨raw, hraw, (rawToRecord_eq_ok hmade).2.1.symm⟩

theorem backfillTenant_keeps : Keeps (Ready libraries legacy) (Step libraries)
    (backfillTenant libraries tenant fuel after report) := by
  induction fuel generalizing after report with
  | zero => exact Effectful.keeps_throw _
  | succ fuel ih =>
    intro w hw
    rw [run_backfillTenant, hw.1]
    split
    · exact .refl
    · next batch hbatch =>
      split
      · exact .refl
      · have hpage : Keeps (Ready libraries legacy) (Step libraries)
            (batch.foldlM (backfillRecord libraries tenant) report) :=
          Effectful.keeps_foldlM (ready_stable libraries legacy) (batch_keeps hbatch)
        exact hpage.bind (ready_stable libraries legacy) (fun _ => ih) w hw

omit [DecidableEq N] in
/-- A batch ends with the last row of its page. -/
theorem batch_last (h : auditMigrationBatch libraries legacy (some tenant) after 256 = .ok batch) :
    batch.getLast?.map TenantRecord.recordId =
      (Paging.page RawRecord.recordId (legacy.auditsOf tenant) after 256).getLast?.map
        RawRecord.recordId := by
  have hids : batch.map TenantRecord.recordId =
      (Paging.page RawRecord.recordId (legacy.auditsOf tenant) after 256).map
        RawRecord.recordId := by
    have hpairs := auditMigrationBatch_eq_ok h
    clear h
    generalize Paging.page RawRecord.recordId (legacy.auditsOf tenant) after 256 = rows at hpairs
    induction hpairs with
    | nil => rfl
    | cons hmade _ ih => rw [List.map_cons, List.map_cons, (rawToRecord_eq_ok hmade).2.1, ih]
  rw [← List.getLast?_map, hids, List.getLast?_map]

/-- A page that is visited leaves no row of its own behind that the log takes. -/
theorem batch_covers (h : auditMigrationBatch libraries legacy (some tenant) after 256 = .ok batch)
    (hw : Ready libraries legacy w)
    (hreturns : Returns (batch.foldlM (backfillRecord libraries tenant) report) w report' w')
    {raw : RawRecord} (hraw : raw ∈ legacy.auditsOf tenant) (heligible : Eligible libraries raw)
    {record : TenantRecord N} (hrecord : record ∈ batch)
    (hmade : rawToRecord libraries raw = .ok record) :
    Audited w'.log.rows tenant raw.recordId := by
  have htenant : raw.tenantId = tenant := of_decide_eq_true (List.mem_filter.mp hraw).2
  obtain ⟨hrecordTenant, hrecordId, hrecordOrigin, hpayload⟩ := rawToRecord_eq_ok hmade
  obtain ⟨payload, hpayload', htimestamp, hmetadata⟩ := heligible.mapped
  obtain rfl := Option.some.inj (hpayload.symm.trans hpayload')
  have hcompatible : compatible tenant record = true := by
    simp only [compatible, hrecordId, hrecordOrigin, ← htenant, heligible.tenant,
      heligible.record, heligible.origin, Bool.and_self]
  rw [← hrecordId]
  refine Effectful.foldlM_each
    (P := fun x w => x = record → Audited w.log.rows tenant record.recordId)
    (ready_stable libraries legacy) (batch_keeps h) ?_ ?_ hw hreturns record hrecord rfl
  · exact fun x _ _ haudited hstep hx => audited_step (haudited hx) hstep
  · rintro _ _ s s' x hx hready hvisit rfl
    exact backfillRecord_covers hready.2 hcompatible (hrecordTenant.trans htenant) htimestamp
      hmetadata hvisit

/-- A tenant's run that returns leaves no row behind that the log takes. -/
theorem backfillTenant_covers (hw : Ready libraries legacy w)
    (hreturns : Returns (backfillTenant libraries tenant fuel after report) w report' w') :
    ∀ raw ∈ legacy.auditsOf tenant, Paging.Behind RawRecord.recordId after raw →
      Eligible libraries raw → Audited w'.log.rows tenant raw.recordId := by
  induction fuel generalizing after report w with
  | zero => exact absurd hreturns (Effectful.not_returns_throw _)
  | succ fuel ih =>
    intro raw hraw hbehind heligible
    unfold Returns at hreturns
    rw [run_backfillTenant, hw.1] at hreturns
    split at hreturns
    · cases (Prod.mk.inj hreturns).1
    · next batch hbatch =>
      have hpairs := auditMigrationBatch_eq_ok hbatch
      have hcovers : raw ∈ Paging.page RawRecord.recordId (legacy.auditsOf tenant) after 256 ∨ _ :=
        Paging.page_covers (auditsOf_unique legacy tenant) hraw hbehind
      have hends := batch_last hbatch
      split at hreturns
      · next hnone =>
        rw [hnone] at hends
        have hnil := Option.map_eq_none_iff.mp hends.symm
        exact absurd hbehind (Paging.page_nil (by omega) (List.getLast?_eq_none_iff.mp hnil) hraw)
      · next last hlast =>
        rw [hlast] at hends
        obtain ⟨middle, w₁, hpage, hrest⟩ := Effectful.returns_bind.mp hreturns
        have hsteps := (Effectful.keeps_foldlM (ready_stable libraries legacy)
          (batch_keeps hbatch)).returns hw hpage
        have hready : Ready libraries legacy w₁ :=
          Effectful.stable_steps (ready_stable libraries legacy) hsteps hw
        obtain hin | hout := hcovers
        · obtain ⟨record, hrecord, hmade⟩ := Loop.forall₂_left hpairs hin
          exact audited_steps (backfillTenant_keeps.returns hready hrest)
            (batch_covers hbatch hw hpage hraw heligible hrecord hmade)
        · rw [← hends] at hout
          exact ih hready hrest raw hraw hout heligible

theorem backfillRecord_avoids {record : TenantRecord N} : Effectful.Avoids (Ready libraries legacy)
    .endless (backfillRecord libraries tenant report record) := by
  intro w _
  have hvisit : Visit libraries tenant record w
      (Effectful.run (backfillRecord libraries tenant report record) w) := backfillRecord_visit
  generalize Effectful.run (backfillRecord libraries tenant report record) w = result at hvisit ⊢
  cases hvisit with
  | retained | found => exact nofun
  | stopped stop h => exact fun herror => h (Except.error.inj herror)
  | tried _ _ _ _ _ _ result hends => exact hends

/-- There are no more pages than rows behind what was seen. -/
theorem backfillTenant_avoids
    (hfuel : Paging.left RawRecord.recordId (legacy.auditsOf tenant) after < fuel) :
    Effectful.Avoids (Ready libraries legacy) .endless
      (backfillTenant libraries tenant fuel after report) := by
  induction fuel generalizing after report with
  | zero => omega
  | succ fuel ih =>
    intro w hw
    rw [run_backfillTenant, hw.1]
    split
    · exact nofun
    · next batch hbatch =>
      have hends := batch_last hbatch
      split
      · exact nofun
      · next last hlast =>
        rw [hlast] at hends
        obtain ⟨row, hrow, hid⟩ := Option.map_eq_some_iff.mp hends.symm
        have hfewer := Paging.left_lt (List.mem_of_getLast? hrow)
        rw [hid] at hfewer
        have hrest : ∀ report, Effectful.Avoids (Ready libraries legacy) .endless
            (backfillTenant libraries tenant fuel (some last.recordId) report) :=
          fun report => ih (by omega)
        exact Effectful.Avoids.bind (ready_stable libraries legacy)
          (Effectful.keeps_foldlM (ready_stable libraries legacy) (batch_keeps hbatch))
          (Effectful.avoids_foldlM (ready_stable libraries legacy) (batch_keeps hbatch)
            fun _ _ _ => backfillRecord_avoids) hrest w hw

end Tenants

section Runs

variable {N : Type} [DecidableEq N] {libraries : Libraries N} {tenant : String}
  {report : AuditMigrationReport} {w w' : World} {legacy : TenantStore} {left : Option Nat}

omit [DecidableEq N] in
theorem mem_auditTenants {raw : RawRecord} (hraw : raw ∈ legacy.rows) (haudit : raw.kind = .audit) :
    raw.tenantId ∈ auditTenantsForMigration legacy ∧ raw ∈ legacy.auditsOf raw.tenantId := by
  have hmem : raw ∈ legacy.audits := List.mem_filter.mpr ⟨hraw, decide_eq_true haudit⟩
  refine ⟨?_, List.mem_filter.mpr ⟨hmem, decide_eq_true rfl⟩⟩
  rw [auditTenantsForMigration, List.mem_insertionSort, List.mem_dedup]
  exact List.mem_map_of_mem hmem

/-- A start, tenant by tenant. -/
theorem run_backfillLegacyAudits : Effectful.run (backfillLegacyAudits libraries) w =
    Effectful.run ((auditTenantsForMigration w.legacy).foldlM (fun report tenant =>
      backfillTenant libraries tenant (w.legacy.rows.length + 1) none report) ⟨0, 0⟩) w := by
  rw [backfillLegacyAudits, Effectful.run_get_bind]

theorem start_steps (hfresh : Fresh libraries w) (left : Option Nat) :
    ReflTransGen (Step libraries) w (start libraries w left).2 := by
  have hready : Ready libraries w.legacy { w with left := left } :=
    ⟨rfl, hfresh.version, hfresh.distinct, hfresh.unused⟩
  have htenants : ∀ report, ∀ tenant ∈ auditTenantsForMigration w.legacy,
      Keeps (Ready libraries w.legacy) (Step libraries)
        (backfillTenant libraries tenant (w.legacy.rows.length + 1) none report) :=
    fun _ _ _ => backfillTenant_keeps
  have hkeeps : Keeps (Ready libraries w.legacy) (Step libraries)
      ((auditTenantsForMigration w.legacy).foldlM (fun report tenant =>
        backfillTenant libraries tenant (w.legacy.rows.length + 1) none report) ⟨0, 0⟩) :=
    Effectful.keeps_foldlM (ready_stable libraries w.legacy) htenants
  have hrun : ReflTransGen (Step libraries) { w with left := left }
      (start libraries w left).2 := by
    rw [start, run_backfillLegacyAudits]
    exact hkeeps _ hready
  exact .trans (.single (.tried w left)) hrun

theorem start_avoids (hfresh : Fresh libraries w) (left : Option Nat) :
    (start libraries w left).1 ≠ .error .endless := by
  have hready : Ready libraries w.legacy { w with left := left } :=
    ⟨rfl, hfresh.version, hfresh.distinct, hfresh.unused⟩
  have hfuel : ∀ tenant, Paging.left RawRecord.recordId (w.legacy.auditsOf tenant) none <
      w.legacy.rows.length + 1 := by
    intro tenant
    have hcount : Paging.left RawRecord.recordId (w.legacy.auditsOf tenant) none ≤
        (w.legacy.auditsOf tenant).length := List.countP_le_length
    have hsub : (w.legacy.auditsOf tenant).length ≤ w.legacy.rows.length :=
      (List.length_filter_le _ _).trans (List.length_filter_le _ _)
    omega
  have hloop : Effectful.Avoids (Ready libraries w.legacy) .endless
      ((auditTenantsForMigration w.legacy).foldlM (fun report tenant =>
        backfillTenant libraries tenant (w.legacy.rows.length + 1) none report) ⟨0, 0⟩) :=
    Effectful.avoids_foldlM (ready_stable libraries w.legacy)
      (fun _ _ _ => backfillTenant_keeps) fun _ tenant _ => backfillTenant_avoids (hfuel tenant)
  rw [start, run_backfillLegacyAudits]
  exact hloop _ hready

/-- A start that completes leaves an audit for every record that the log takes. -/
theorem start_covers (hfresh : Fresh libraries w)
    (hdone : (start libraries w left).1 = .ok report) {raw : RawRecord}
    (hraw : raw ∈ w.legacy.rows) (heligible : Eligible libraries raw) :
    Audited (start libraries w left).2.log.rows raw.tenantId raw.recordId := by
  have hready : Ready libraries w.legacy { w with left := left } :=
    ⟨rfl, hfresh.version, hfresh.distinct, hfresh.unused⟩
  obtain ⟨htenant, hmem⟩ := mem_auditTenants hraw heligible.audit
  have hreturns : Returns ((auditTenantsForMigration w.legacy).foldlM (fun report tenant =>
      backfillTenant libraries tenant (w.legacy.rows.length + 1) none report) ⟨0, 0⟩)
      { w with left := left } report (start libraries w left).2 := by
    have hpair : start libraries w left = (.ok report, (start libraries w left).2) :=
      Prod.ext hdone rfl
    rw [start, run_backfillLegacyAudits] at hpair
    rw [start, run_backfillLegacyAudits]
    exact hpair
  refine Effectful.foldlM_each (P := fun tenant w => tenant = raw.tenantId →
      Audited w.log.rows raw.tenantId raw.recordId)
    (ready_stable libraries w.legacy) (fun _ _ _ => backfillTenant_keeps) ?_ ?_ hready hreturns
      raw.tenantId htenant rfl
  · exact fun _ _ _ haudited hstep hsame => audited_step (haudited hsame) hstep
  · rintro _ _ s s' tenant _ hs hvisit rfl
    exact backfillTenant_covers hs hvisit raw hmem nofun heligible

/-- What was appended on the way: audits of legacy records that had none, one for each. -/
structure Appended (w w' : World) (added : List RawEvent) : Prop where
  legacy : w'.legacy = w.legacy
  rows : w'.log.rows = w.log.rows ++ added
  audit : ∀ raw ∈ added, raw.eventType = EventType.auditFinalized.asStr
  source : ∀ raw ∈ added, ∃ old ∈ w.legacy.auditsOf raw.tenantId, old.recordId = raw.recordId
  new : ∀ raw ∈ added, ¬Audited w.log.rows raw.tenantId raw.recordId
  once : (added.map fun raw => (raw.tenantId, raw.recordId)).Nodup

omit [DecidableEq N] in
theorem Appended.step {w'' : World} {added : List RawEvent} (h : Appended w w' added)
    (hstep : Step libraries w' w'') : ∃ more, Appended w w'' more := by
  cases hstep with
  | minted | tried => exact ⟨added, h.legacy, h.rows, h.audit, h.source, h.new, h.once⟩
  | appended raw sequence haudit hnew hid hsource =>
    rw [h.rows] at hnew
    rw [h.legacy] at hsource
    have hcases : ∀ {P : RawEvent → Prop}, (∀ old ∈ added, P old) → P raw →
        ∀ old ∈ added ++ [raw], P old := by
      intro P hadded hraw old hold
      obtain hold | hold := List.mem_append.mp hold
      · exact hadded old hold
      · exact List.mem_singleton.mp hold ▸ hraw
    refine ⟨added ++ [raw], h.legacy, ?_, hcases h.audit haudit, hcases h.source hsource,
      hcases h.new ?_, ?_⟩
    · simp only [h.rows, List.append_assoc]
    · rintro ⟨old, hold, hfields⟩
      exact hnew ⟨old, List.mem_append_left _ hold, hfields⟩
    · rw [List.map_append, List.nodup_append]
      refine ⟨h.once, List.nodup_singleton _, ?_⟩
      rintro key hkey other hother rfl
      obtain ⟨old, hold, hsame⟩ := List.mem_map.mp hkey
      rw [List.mem_singleton.mp hother] at hsame
      obtain ⟨htenant, hrecord⟩ := Prod.mk.inj hsame
      exact hnew ⟨old, List.mem_append_right _ hold, htenant, hrecord, h.audit old hold⟩

omit [DecidableEq N] in
theorem appended_steps (hsteps : ReflTransGen (Step libraries) w w') :
    ∃ added, Appended w w' added := by
  induction hsteps with
  | refl => exact ⟨[], rfl, (List.append_nil _).symm, List.forall_mem_nil _,
      List.forall_mem_nil _, List.forall_mem_nil _, List.nodup_nil⟩
  | tail _ hstep ih =>
    obtain ⟨added, hadded⟩ := ih
    exact hadded.step hstep

/-- The world after a sequence of starts. -/
def afterStarts (libraries : Libraries N) (w : World) (runs : List (Option Nat)) : World :=
  runs.foldl (fun w left => (start libraries w left).2) w

theorem afterStarts_steps (hfresh : Fresh libraries w) (runs : List (Option Nat)) :
    ReflTransGen (Step libraries) w (afterStarts libraries w runs) ∧
      Fresh libraries (afterStarts libraries w runs) := by
  induction runs generalizing w with
  | nil => exact ⟨.refl, hfresh⟩
  | cons left rest ih =>
    have hstart := start_steps hfresh left
    have hnext : Fresh libraries (start libraries w left).2 :=
      Effectful.stable_steps (fun _ _ h hstep => h.step hstep) hstart hfresh
    obtain ⟨hsteps, hlast⟩ := ih hnext
    exact ⟨hstart.trans hsteps, hlast⟩

/-- Over any sequence of starts, interrupted or not, every audit that is appended is the first of
its record; and a start that completes leaves every record that the log takes with one. -/
theorem backfill_exactly_once (hfresh : Fresh libraries w) (runs : List (Option Nat)) :
    (∀ earlier later, runs = earlier ++ later → ∃ added,
      Appended (afterStarts libraries w earlier) (afterStarts libraries w runs) added) ∧
    ∀ left, (start libraries (afterStarts libraries w runs) left).1 ≠ .error .endless ∧
      ∀ report, (start libraries (afterStarts libraries w runs) left).1 = .ok report →
        ∀ raw ∈ w.legacy.rows, Eligible libraries raw →
          Audited (start libraries (afterStarts libraries w runs) left).2.log.rows raw.tenantId
            raw.recordId := by
  obtain ⟨hsteps, hlast⟩ := afterStarts_steps hfresh runs
  have hlegacy : (afterStarts libraries w runs).legacy = w.legacy := by
    obtain ⟨added, hadded⟩ := appended_steps hsteps
    exact hadded.legacy
  constructor
  · rintro earlier later rfl
    obtain ⟨-, hmiddle⟩ := afterStarts_steps hfresh earlier
    obtain ⟨hrest, -⟩ := afterStarts_steps hmiddle later
    have happend : afterStarts libraries w (earlier ++ later) =
        afterStarts libraries (afterStarts libraries w earlier) later := List.foldl_append
    rw [happend]
    exact appended_steps hrest
  · intro left
    refine ⟨start_avoids hlast left, fun report hdone raw hraw heligible => ?_⟩
    rw [← hlegacy] at hraw
    exact start_covers hlast hdone hraw heligible

end Runs

section Samples

/-- Libraries that know two metadata maps; the identifiers count up. -/
def legacyLibraries : Libraries Nat where
  uuidVersion value := if value.toList[14]? = some '4' then some 4 else none
  toJson metadata :=
    if metadata = [("component", .string "router")] then "\x7b\"component\":\"router\"\x7d" else ""
  fromJson text :=
    if text = "\x7b\"ts_utc\":5\x7d" then some [("ts_utc", .number 5)]
    else if text = "\x7b\"component\":\"router\"\x7d" then some [("component", .string "router")]
    else none
  asF64 n := some n
  newUuid n := "00000000-0000-4000-8000-" ++ Nat.repr (100000000000 + n)

def legacyRow : RawRecord where
  tenantId := "tenant"
  kind := .audit
  recordId := "record"
  requestId := "request"
  originRecordId := none
  payload := "\x7b\"ts_utc\":5\x7d"

def legacyWorld : World where
  legacy := ⟨[legacyRow], List.nodup_singleton _⟩
  log := .empty
  uuids := 0
  left := none

theorem fresh_legacyWorld : Fresh legacyLibraries legacyWorld where
  version n := by simp [legacyLibraries]
  distinct m n h := by
    have hrepr := (String.append_right_inj _).mp h
    have hdigits := congrArg String.toList hrepr
    rw [Nat.toList_repr, Nat.toList_repr] at hdigits
    have hvalue := congrArg (Nat.ofDigitChars 10 · 0) hdigits
    simp only [Nat.ofDigitChars_ten_toDigits] at hvalue
    omega
  unused := List.forall_mem_nil _

/-- A start that is interrupted before its append, and one that completes. -/
theorem backfill_exactly_once_record :
    (∃ added, Appended (afterStarts legacyLibraries legacyWorld [some 0])
      (afterStarts legacyLibraries legacyWorld [some 0, none]) added) ∧
    Audited (start legacyLibraries (afterStarts legacyLibraries legacyWorld [some 0, none])
      none).2.log.rows "tenant" "record" := by
  have hruns := backfill_exactly_once fresh_legacyWorld [some 0, none]
  have hdone : (start legacyLibraries (afterStarts legacyLibraries legacyWorld [some 0, none])
      none).1 = .ok ⟨0, 0⟩ := by decide +kernel
  have heligible : Eligible legacyLibraries legacyRow := by
    refine ⟨rfl, by decide +kernel, by decide +kernel, rfl, [("ts_utc", .number 5)], rfl, ?_, ?_⟩
    · decide +kernel
    · decide +kernel
  exact ⟨hruns.1 [some 0] [none] rfl,
    (hruns.2 none).2 _ hdone legacyRow List.mem_cons_self heligible⟩

end Samples

end Backfill
