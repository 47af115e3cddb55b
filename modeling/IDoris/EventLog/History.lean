import IDoris.EventLog.Store
import IDoris.Library.Table

/-!
# The event log over its history

The log beside the list of events that were appended to it, as they were handed
in: the rows are exactly their encodings.
-/
namespace EventLog

open Bounded Json Text Transaction
open scoped List

section Statement

variable {N : Type} [DecidableEq N] (codec : Codec N)

/-- The log file, and the events it was given and took with the sequence numbers it answered. -/
structure World (N : Type) where
  log : Log
  appended : List (EventLogEvent N)

/-- An append: the scope of the caller and the event. -/
abbrev Call (N : Type) := Option String × NewEvent N

def World.after (w : World N) (call : Call N) : World N :=
  let done := append codec call.1 call.2 w.log
  ⟨done.2, if done.2 = w.log then w.appended
    else w.appended ++ done.1.toOption.toList.map fun sequence => ⟨sequence, call.2⟩⟩

def run (calls : List (Call N)) : World N := calls.foldl (World.after codec) ⟨Log.empty, []⟩

/-- The scope and the event pass every check made before the log is looked at. -/
def Valid (scope : Option String) (event : NewEvent N) : Prop :=
  ∃ tenant, requiredScope scope = .ok tenant ∧ validateEvent codec tenant event = .ok ()

/-- The metadata of the event is read back from its text. -/
def RoundTrips (event : NewEvent N) : Prop :=
  codec.fromJson (codec.toJson event.metadata) = some event.metadata

/-- What every append and every query does at a state of the log. -/
structure AppendOnly (w : World N) : Prop where
  ordered : (w.appended.map EventLogEvent.sequence).Pairwise (· < ·)
  fresh : ∀ scope event, Valid codec scope event →
    (∀ stored ∈ w.appended, stored.event.eventId ≠ event.eventId) →
    ∃ sequence, append codec scope event w.log =
      (.ok sequence, ⟨w.log.rows ++ [encode codec event.tenantId sequence event], sequence⟩) ∧
      ∀ raw ∈ w.log.rows, raw.sequence < sequence
  replayed : ∀ stored ∈ w.appended,
    append codec (some stored.event.tenantId) stored.event w.log = (.ok stored.sequence, w.log)
  conflicting : ∀ scope event, Valid codec scope event → ∀ stored ∈ w.appended,
    stored.event.eventId = event.eventId → stored.event ≠ event →
    append codec scope event w.log = (.error .idempotencyConflict, w.log)
  refused : ∀ scope event, ¬Valid codec scope event →
    ∃ e, append codec scope event w.log = (.error e, w.log)
  forRecord : ∀ scope tenant recordId, requiredScope scope = .ok tenant →
    validateRecordId recordId = .ok () →
    eventsForRecord codec scope recordId w.log = .ok (w.appended.filter fun stored =>
      stored.event.tenantId = tenant ∧ stored.event.recordId = recordId)
  forTenant : ∀ scope tenant query, requiredScope scope = .ok tenant →
    (∀ recordId, query.recordId = some recordId → validateRecordId recordId = .ok ()) →
    0 < query.limit → query.limit < 2 ^ 63 →
    eventsForTenant codec scope query w.log = .ok ((w.appended.filter fun stored =>
      stored.event.tenantId = tenant ∧
        query.selects stored.event.tsUtcMs stored.event.recordId = true).take query.limit)

end Statement

section Codec

variable {N : Type} {codec : Codec N} {scope : Option String} {tenant : String}
  {event : NewEvent N} {sequence : Nat}

theorem validateEvent_eq_ok :
    validateEvent codec tenant event = .ok () ↔
      event.tenantId = tenant ∧ validateStoredEvent codec event = .ok () := by
  simp [validateEvent, bind_eq_ok, refuseIf_eq_ok]

theorem requiredScope_eq_ok (h : requiredScope scope = .ok tenant) : scope = some tenant := by
  simp only [requiredScope, bind_eq_ok, orRefuse_eq_ok, Option.filter_eq_some_iff, pure_eq_ok] at h
  obtain ⟨found, ⟨hscope, -⟩, -, -, rfl⟩ := h
  exact hscope

/-- The row of a stored event decodes to it. -/
theorem decode_encode (htrips : RoundTrips codec event)
    (hvalid : validateStoredEvent codec event = .ok ()) :
    decode codec (encode codec event.tenantId sequence event) = .ok ⟨sequence, event⟩ := by
  unfold RoundTrips at htrips
  simp [decode, encode, bind, Except.bind, htrips, orRefuse, hvalid, pure, Except.pure]

end Codec

section Invariant

variable {N : Type} {codec : Codec N}

/-- The row of an event. -/
def EventLogEvent.row (codec : Codec N) (stored : EventLogEvent N) : RawEvent :=
  encode codec stored.event.tenantId stored.sequence stored.event

/-- The rows are the encodings of the appended events. -/
structure Faithful (codec : Codec N) (w : World N) : Prop where
  rows : w.log.rows = w.appended.map (EventLogEvent.row codec)
  ordered : (w.appended.map EventLogEvent.sequence).Pairwise (· < ·)
  assigned : ∀ stored ∈ w.appended, stored.sequence ≤ w.log.assigned
  ids : (w.appended.map fun stored => stored.event.eventId).Nodup
  valid : ∀ stored ∈ w.appended, Valid codec (some stored.event.tenantId) stored.event
  trips : ∀ stored ∈ w.appended, RoundTrips codec stored.event

variable {w : World N} {stored : EventLogEvent N} {event : NewEvent N} {scope : Option String}
  {tenant : String}

theorem faithful_start : Faithful codec (⟨Log.empty, []⟩ : World N) := by
  constructor <;> simp [Log.empty]

theorem Faithful.decode_row (h : Faithful codec w) (hstored : stored ∈ w.appended) :
    decode codec (stored.row codec) = .ok stored := by
  obtain ⟨_, -, hevent⟩ := h.valid stored hstored
  exact decode_encode (h.trips stored hstored) (validateEvent_eq_ok.mp hevent).2

/-- The select by id finds the appended event with that id. -/
theorem Faithful.loadById_eq (h : Faithful codec w) (eventId : String) :
    loadById codec w.log eventId =
      .ok (w.appended.find? fun stored => stored.event.eventId = eventId) := by
  have hfind : w.log.rows.find? (fun raw => raw.eventId = eventId) =
      (w.appended.find? fun stored => stored.event.eventId = eventId).map
        (EventLogEvent.row codec) := by
    rw [h.rows, List.find?_map]
    rfl
  rw [loadById, hfind]
  cases hstored : w.appended.find? fun stored => stored.event.eventId = eventId with
  | none => rfl
  | some stored =>
    simp only [Option.map_some, h.decode_row (List.mem_of_find?_eq_some hstored)]
    rfl

/-- The select by an id that was appended finds just that event. -/
theorem Faithful.loadById_of_mem (h : Faithful codec w) {stored : EventLogEvent N}
    (hstored : stored ∈ w.appended) :
    loadById codec w.log stored.event.eventId = .ok (some stored) := by
  rw [h.loadById_eq]
  have hfind := Table.lookup_of_mem h.ids hstored
  exact congrArg Except.ok hfind

theorem Faithful.fresh_rows (h : Faithful codec w)
    (hfresh : ∀ stored ∈ w.appended, stored.event.eventId ≠ event.eventId) :
    loadById codec w.log event.eventId = .ok none ∧
      ∀ raw ∈ w.log.rows, raw.eventId ≠ event.eventId := by
  constructor
  · rw [h.loadById_eq, List.find?_eq_none.mpr (by simpa using hfresh)]
  · intro raw hraw
    rw [h.rows] at hraw
    obtain ⟨stored, hstored, rfl⟩ := List.mem_map.mp hraw
    exact hfresh stored hstored

theorem mapM_decode {events : List (EventLogEvent N)}
    (h : ∀ stored ∈ events, decode codec (stored.row codec) = .ok stored) :
    (events.map (EventLogEvent.row codec)).mapM (decode codec) = .ok events := by
  induction events with
  | nil => rfl
  | cons stored rest ih =>
    have hrest := ih fun other hother => h other (List.mem_cons_of_mem _ hother)
    rw [List.map_cons, List.mapM_cons, h stored List.mem_cons_self, hrest]
    rfl

/-- A query reads back the appended events it selects, in the order they were appended. -/
theorem Faithful.selected (h : Faithful codec w) {p : RawEvent → Bool} :
    ∃ events, events = w.appended.filter (fun stored => p (stored.row codec)) ∧
      orderBySequence (w.log.rows.filter p) = events.map (EventLogEvent.row codec) ∧
      ∀ stored ∈ events, decode codec (stored.row codec) = .ok stored := by
  refine ⟨_, rfl, ?_, ?_⟩
  · have hrows : w.log.rows.filter p =
        (w.appended.filter fun stored => p (stored.row codec)).map (EventLogEvent.row codec) := by
      rw [h.rows, List.filter_map]
      rfl
    rw [hrows, orderBySequence]
    apply List.Pairwise.insertionSort_eq
    have hordered := List.pairwise_map.mp h.ordered
    exact List.pairwise_map.mpr ((hordered.sublist List.filter_sublist).imp fun hlt => hlt.le)
  · intro stored hstored
    exact h.decode_row (List.mem_filter.mp hstored).1

theorem Faithful.eventsForRecord_eq (h : Faithful codec w) {recordId : String}
    (hscope : requiredScope scope = .ok tenant) (hrecord : validateRecordId recordId = .ok ()) :
    eventsForRecord codec scope recordId w.log = .ok (w.appended.filter fun stored =>
      stored.event.tenantId = tenant ∧ stored.event.recordId = recordId) := by
  obtain ⟨events, hevents, horder, hdecode⟩ := h.selected
    (p := fun raw => raw.tenantId = tenant ∧ raw.recordId = recordId)
  simp only [eventsForRecord, hscope, hrecord, bind, Except.bind, horder, mapM_decode hdecode]
  rw [hevents]
  rfl

theorem Faithful.eventsForTenant_eq (h : Faithful codec w) {query : EventLogQuery}
    (hscope : requiredScope scope = .ok tenant)
    (hrecord : ∀ recordId, query.recordId = some recordId → validateRecordId recordId = .ok ())
    (hpositive : 0 < query.limit) (hfits : query.limit < 2 ^ 63) :
    eventsForTenant codec scope query w.log = .ok ((w.appended.filter fun stored =>
      stored.event.tenantId = tenant ∧
        query.selects stored.event.tsUtcMs stored.event.recordId = true).take query.limit) := by
  obtain ⟨events, hevents, horder, hdecode⟩ := h.selected
    (p := fun raw => raw.tenantId = tenant ∧ query.selects raw.tsUtcMs raw.recordId = true)
  obtain ⟨limit, hlimit, hval⟩ := I64.checked_natCast hfits
  have htaken : ((events.take query.limit).map (EventLogEvent.row codec)).mapM (decode codec) =
      .ok (events.take query.limit) :=
    mapM_decode fun stored hstored => hdecode stored (List.mem_of_mem_take hstored)
  have hnot : ¬limit.val ≤ 0 := by omega
  have hnat : limit.val.toNat = query.limit := by omega
  have hread : eventsForTenant codec scope query w.log = .ok (events.take query.limit) := by
    unfold eventsForTenant
    rw [hlimit]
    clear hlimit
    cases hwanted : query.recordId with
    | none =>
      simp only [hscope, bind, Except.bind, orRefuse, refuseIf, horder, if_neg hnot, hnat,
        ← List.map_take, htaken]
    | some recordId =>
      simp only [hscope, hrecord recordId hwanted, bind, Except.bind, orRefuse, refuseIf,
        horder, if_neg hnot, hnat, ← List.map_take, htaken]
  rw [hread, hevents]
  rfl

end Invariant

section Append

variable {N : Type} [DecidableEq N] {codec : Codec N} {w : World N} {event : NewEvent N}
  {scope : Option String} {tenant : String}

theorem append_refused (h : ¬Valid codec scope event) (log : Log) :
    ∃ e, append codec scope event log = (.error e, log) := by
  unfold append
  cases hscope : requiredScope scope with
  | error e => exact ⟨e, rfl⟩
  | ok tenant =>
    cases hevent : validateEvent codec tenant event with
    | error e =>
      refine ⟨e, ?_⟩
      simp [bind, Except.bind, hevent]
    | ok u => exact absurd ⟨tenant, hscope, hevent⟩ h

theorem append_found {stored : EventLogEvent N} (hvalid : Valid codec scope event) {log : Log}
    (hload : loadById codec log event.eventId = .ok (some stored)) :
    append codec scope event log =
      (if stored.event = event then .ok stored.sequence else .error .idempotencyConflict, log) := by
  obtain ⟨tenant, hscope, hevent⟩ := hvalid
  by_cases hsame : stored.event = event
  · simp [append, hscope, hevent, hload, bind, Except.bind, refuseIf, hsame, pure, Except.pure]
  · simp [append, hscope, hevent, hload, bind, Except.bind, refuseIf, hsame]

theorem insertEvent_fresh {log : Log} {row : Nat → RawEvent}
    (h : ∀ raw ∈ log.rows, raw.eventId ≠ (row (log.assigned + 1)).eventId) :
    insertEvent log row = .ok ⟨log.rows ++ [row (log.assigned + 1)], log.assigned + 1⟩ := by
  rw [insertEvent, if_neg]
  simpa using h

theorem append_fresh (hvalid : Valid codec scope event) {log : Log}
    (hload : loadById codec log event.eventId = .ok none)
    (hfresh : ∀ raw ∈ log.rows, raw.eventId ≠ event.eventId) :
    append codec scope event log = (.ok (log.assigned + 1),
      ⟨log.rows ++ [encode codec event.tenantId (log.assigned + 1) event], log.assigned + 1⟩) := by
  obtain ⟨tenant, hscope, hevent⟩ := hvalid
  have htenant := (validateEvent_eq_ok.mp hevent).1
  have hinsert : insertEvent log (fun sequence => encode codec tenant sequence event) = .ok
      ⟨log.rows ++ [encode codec tenant (log.assigned + 1) event], log.assigned + 1⟩ :=
    insertEvent_fresh hfresh
  simp [append, hscope, hevent, hload, bind, Except.bind, hinsert, pure, Except.pure, htenant]

theorem World.after_unchanged {call : Call N} (h : (append codec call.1 call.2 w.log).2 = w.log) :
    w.after codec call = w := by
  simp [World.after, h]

/-- The world after an append of a new id. -/
theorem World.after_fresh {call : Call N} (hvalid : Valid codec call.1 call.2)
    (hload : loadById codec w.log call.2.eventId = .ok none)
    (hfresh : ∀ raw ∈ w.log.rows, raw.eventId ≠ call.2.eventId) :
    w.after codec call =
      ⟨⟨w.log.rows ++ [encode codec call.2.tenantId (w.log.assigned + 1) call.2],
        w.log.assigned + 1⟩, w.appended ++ [⟨w.log.assigned + 1, call.2⟩]⟩ := by
  have hgrown : (⟨w.log.rows ++ [encode codec call.2.tenantId (w.log.assigned + 1) call.2],
      w.log.assigned + 1⟩ : Log) ≠ w.log := by
    intro heq
    have := congrArg Log.assigned heq
    simp at this
  simp [World.after, append_fresh hvalid hload hfresh, hgrown, Except.toOption]

/-- An append leaves the log alone, or adds one event with a new id. -/
theorem Faithful.after_cases (h : Faithful codec w) (call : Call N) :
    w.after codec call = w ∧ (append codec call.1 call.2 w.log).2 = w.log ∨
      Valid codec call.1 call.2 ∧
      (∀ stored ∈ w.appended, stored.event.eventId ≠ call.2.eventId) ∧
      w.after codec call =
        ⟨⟨w.log.rows ++ [encode codec call.2.tenantId (w.log.assigned + 1) call.2],
          w.log.assigned + 1⟩, w.appended ++ [⟨w.log.assigned + 1, call.2⟩]⟩ := by
  by_cases hvalid : Valid codec call.1 call.2
  · by_cases hfresh : ∀ stored ∈ w.appended, stored.event.eventId ≠ call.2.eventId
    · obtain ⟨hload, hrows⟩ := h.fresh_rows hfresh
      exact .inr ⟨hvalid, hfresh, World.after_fresh hvalid hload hrows⟩
    · simp only [not_forall, ne_eq, not_not] at hfresh
      obtain ⟨stored, hstored, hid⟩ := hfresh
      have hunchanged : (append codec call.1 call.2 w.log).2 = w.log := by
        rw [append_found hvalid (hid ▸ h.loadById_of_mem hstored)]
      exact .inl ⟨World.after_unchanged hunchanged, hunchanged⟩
  · obtain ⟨e, hrefused⟩ := append_refused hvalid w.log
    have hunchanged : (append codec call.1 call.2 w.log).2 = w.log := by rw [hrefused]
    exact .inl ⟨World.after_unchanged hunchanged, hunchanged⟩

/-- Appending keeps the rows encodings of what was appended. -/
theorem Faithful.after (h : Faithful codec w) {call : Call N} (htrips : RoundTrips codec call.2) :
    Faithful codec (w.after codec call) := by
  obtain ⟨hsame, -⟩ | ⟨⟨tenant, hscope, hevent⟩, hfresh, hafter⟩ := h.after_cases call
  · rw [hsame]
    exact h
  · rw [hafter]
    have htenant := (validateEvent_eq_ok.mp hevent).1
    have hvalid : Valid codec (some call.2.tenantId) call.2 := by
      rw [htenant, ← requiredScope_eq_ok hscope]
      exact ⟨tenant, hscope, hevent⟩
    constructor
    · simp [h.rows, EventLogEvent.row]
    · simp only [List.map_append, List.map_singleton, List.pairwise_append, List.mem_map,
        List.mem_singleton, forall_eq, forall_exists_index, and_imp, forall_apply_eq_imp_iff₂]
      refine ⟨h.ordered, List.pairwise_singleton _ _, ?_⟩
      intro stored hstored
      have := h.assigned stored hstored
      omega
    · intro stored hstored
      obtain hstored | hstored := List.mem_append.mp hstored
      · have := h.assigned stored hstored
        simp only
        omega
      · rw [List.mem_singleton.mp hstored]
    · simp only [List.map_append, List.map_singleton, List.nodup_append, List.mem_map,
        List.mem_singleton, ne_eq, forall_eq, forall_exists_index, and_imp,
        forall_apply_eq_imp_iff₂]
      exact ⟨h.ids, List.nodup_singleton _, hfresh⟩
    · intro stored hstored
      obtain hstored | hstored := List.mem_append.mp hstored
      · exact h.valid stored hstored
      · rw [List.mem_singleton.mp hstored]
        exact hvalid
    · intro stored hstored
      obtain hstored | hstored := List.mem_append.mp hstored
      · exact h.trips stored hstored
      · rw [List.mem_singleton.mp hstored]
        exact htrips

theorem Faithful.foldl {calls : List (Call N)} (h : Faithful codec w)
    (htrips : ∀ call ∈ calls, RoundTrips codec call.2) :
    Faithful codec (calls.foldl (World.after codec) w) := by
  induction calls generalizing w with
  | nil => exact h
  | cons call rest ih =>
    exact ih (h.after (htrips call List.mem_cons_self))
      fun other hother => htrips other (List.mem_cons_of_mem _ hother)

/-- A faithful world behaves as an append-only log of the appended events. -/
theorem Faithful.appendOnly (h : Faithful codec w) : AppendOnly codec w := by
  constructor
  · exact h.ordered
  · intro scope event hvalid hfresh
    obtain ⟨hload, hrows⟩ := h.fresh_rows hfresh
    refine ⟨_, append_fresh hvalid hload hrows, ?_⟩
    intro raw hraw
    rw [h.rows] at hraw
    obtain ⟨stored, hstored, rfl⟩ := List.mem_map.mp hraw
    have := h.assigned stored hstored
    simp only [EventLogEvent.row, encode]
    omega
  · intro stored hstored
    rw [append_found (h.valid stored hstored) (h.loadById_of_mem hstored), if_pos rfl]
  · intro scope event hvalid stored hstored hid hne
    rw [append_found hvalid (hid ▸ h.loadById_of_mem hstored), if_neg hne]
  · intro scope event hinvalid
    exact append_refused hinvalid w.log
  · intro scope tenant recordId hscope hrecord
    exact h.eventsForRecord_eq hscope hrecord
  · intro scope tenant query hscope hrecord hpositive hfits
    exact h.eventsForTenant_eq hscope hrecord hpositive hfits

/-- An append never touches the rows that are there. -/
theorem Faithful.after_prefix (h : Faithful codec w) (call : Call N) :
    w.log.rows <+: (w.after codec call).log.rows := by
  obtain ⟨hsame, -⟩ | ⟨-, -, hafter⟩ := h.after_cases call
  · simp only [hsame, List.prefix_rfl]
  · rw [hafter]
    exact List.prefix_append _ _

theorem Faithful.foldl_prefix {calls : List (Call N)} (h : Faithful codec w)
    (htrips : ∀ call ∈ calls, RoundTrips codec call.2) :
    w.log.rows <+: (calls.foldl (World.after codec) w).log.rows := by
  induction calls generalizing w with
  | nil => exact List.prefix_rfl
  | cons call rest ih =>
    have hafter := h.after (htrips call List.mem_cons_self)
    have hrest := ih hafter fun other hother => htrips other (List.mem_cons_of_mem _ hother)
    exact (h.after_prefix call).trans hrest

/-- What is appended are events that were handed in, in the order they came. -/
theorem Faithful.foldl_sublist {calls : List (Call N)} (h : Faithful codec w)
    (htrips : ∀ call ∈ calls, RoundTrips codec call.2) :
    (calls.foldl (World.after codec) w).appended.map EventLogEvent.event <+
      w.appended.map EventLogEvent.event ++ calls.map Prod.snd := by
  induction calls generalizing w with
  | nil => simp
  | cons call rest ih =>
    have hrest := ih (h.after (htrips call List.mem_cons_self))
      fun other hother => htrips other (List.mem_cons_of_mem _ hother)
    refine hrest.trans ?_
    obtain ⟨hsame, -⟩ | ⟨-, -, hafter⟩ := h.after_cases call
    · rw [hsame, List.map_cons]
      exact (List.sublist_cons_self _ _).append_left _
    · rw [hafter]
      simp

end Append

section Result

variable {N : Type} [DecidableEq N]

/-- At every point of every history the log answers appends and queries as a list of the events
it took, and no row is ever changed or removed. -/
theorem event_log_append_only_idempotent (codec : Codec N) (history later : List (Call N))
    (htrips : ∀ call ∈ history ++ later, RoundTrips codec call.2) :
    AppendOnly codec (run codec history) ∧
      (run codec history).appended.map EventLogEvent.event <+ history.map Prod.snd ∧
      (run codec history).log.rows <+: (run codec (history ++ later)).log.rows := by
  have hhistory : ∀ call ∈ history, RoundTrips codec call.2 := fun call hcall =>
    htrips call (List.mem_append_left _ hcall)
  have hlater : ∀ call ∈ later, RoundTrips codec call.2 := fun call hcall =>
    htrips call (List.mem_append_right _ hcall)
  have hfaithful : Faithful codec (run codec history) := faithful_start.foldl hhistory
  refine ⟨hfaithful.appendOnly, ?_, ?_⟩
  · have hsublist := faithful_start.foldl_sublist hhistory
    rwa [List.map_nil, List.nil_append] at hsublist
  · have hprefix := hfaithful.foldl_prefix hlater
    rwa [run, ← List.foldl_append] at hprefix

/-- A library that knows one id and one metadata map. -/
def sampleCodec : Codec Nat where
  uuidVersion value := if value = "0b51b1b0-6d3f-4c3e-8a3b-3d2f1d1a2b3c" then some 4 else none
  toJson metadata :=
    if metadata = [("status", .string "success")] then "\x7b\"status\":\"success\"\x7d" else ""
  fromJson text :=
    if text = "\x7b\"status\":\"success\"\x7d" then some [("status", .string "success")] else none

def sampleEvent : NewEvent Nat where
  eventId := "0b51b1b0-6d3f-4c3e-8a3b-3d2f1d1a2b3c"
  tenantId := "tenant"
  recordId := "record"
  eventType := .completed
  tsUtcMs := I64.lit 1
  requestId := some "request"
  sessionId := none
  traceId := none
  parentId := none
  originRecordId := none
  metadata := [("status", .string "success")]

/-- An append, its replay, and the same id for another record. -/
theorem event_log_append_only_idempotent_replay :
    AppendOnly sampleCodec
        (run sampleCodec [(some "tenant", sampleEvent), (some "tenant", sampleEvent)]) ∧
      (run sampleCodec [(some "tenant", sampleEvent), (some "tenant", sampleEvent)]).appended.map
        EventLogEvent.event <+ [sampleEvent, sampleEvent] ∧
      (run sampleCodec [(some "tenant", sampleEvent), (some "tenant", sampleEvent)]).log.rows <+:
        (run sampleCodec [(some "tenant", sampleEvent), (some "tenant", sampleEvent),
          (some "tenant", { sampleEvent with recordId := "other" })]).log.rows :=
  event_log_append_only_idempotent sampleCodec
    [(some "tenant", sampleEvent), (some "tenant", sampleEvent)]
    [(some "tenant", { sampleEvent with recordId := "other" })] (by
      intro call hcall
      have hmetadata : call.2.metadata = [("status", .string "success")] := by
        simp only [List.cons_append, List.nil_append, List.mem_cons, List.not_mem_nil,
          or_false] at hcall
        obtain rfl | rfl | rfl := hcall <;> rfl
      rw [RoundTrips, hmetadata]
      decide)

end Result

end EventLog
