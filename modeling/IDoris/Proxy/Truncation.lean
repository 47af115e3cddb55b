import IDoris.Proxy.StreamBody

/-!
# A truncated stream does not end cleanly

The signals say what their senders have seen, the chunks move in order, and the
observer's end of the stream is the end of the upstream response.
-/
namespace Proxy.Streaming

open EventStream Transition

namespace Body

variable {b : Body} {api : Api} {observed : Bool}

/-- The body has not seen the end of the queue. -/
def Open (b : Body) : Prop :=
  b.terminalRx = true ∧ b.drainedTx = true ∧ b.permit = true ∧ b.receiverAlive = true ∧
    b.drained = .pending

/-- The body has told the task that the queue is empty. -/
def Drained (b : Body) : Prop := b.drainedTx = false ∧ b.drained = .sent ()

/-- Neither the guard nor the observer has seen an end. -/
structure Fresh (observed : Bool) (b : Body) : Prop where
  event : b.event = observed
  appended : b.appended = []
  failed : b.failed = false
  guardFinished : b.guardFinished = false
  observerFinished : b.observerFinished = false

/-- An end that the guard accepted: the queue was drained and the stream is terminated. -/
def Proper (b : Body) : Prop := b.guardFinished = false → b.marker.done = true ∧ b.Drained

/-- What the event log and the client know at the end. -/
structure Settled (observed : Bool) (b : Body) : Prop where
  proper : b.Proper
  logged : observed = true → ∃ status ok, b.appended = [(status, ok)] ∧
    (status = .success ↔ b.guardFinished = false) ∧ b.failed = (b.guardFinished || !ok)
  unlogged : observed = false → b.appended = [] ∧ b.failed = b.guardFinished

/-- The completion event is being appended. -/
structure Appending (observed : Bool) (b : Body) (status : Status) : Prop where
  proper : b.Proper
  observed : observed = true
  event : b.event = false
  appended : b.appended = []
  failed : b.failed = false
  observerFinished : b.observerFinished = false
  status : status = .success ↔ b.guardFinished = false

/-- The state of the wrappers, by the place of the consumer. -/
def placed (observed : Bool) (b : Body) : Prop :=
  match b.poll with
  | .resting => b.observerFinished = true ∧ b.Settled observed ∨
      b.Fresh observed ∧ (b.dropped = false → b.Open)
  | .receiving => b.Fresh observed ∧ (b.dropped = false → b.Open)
  | .waiting => b.Fresh observed ∧ b.Drained
  | .appending status => b.Appending observed status
  | .finished => b.Settled observed

structure Ok (api : Api) (observed : Bool) (b : Body) : Prop where
  marker : b.marker = (TerminalEvent.new api.terminal).feed b.delivered.flatten
  placed : b.placed observed

theorem ok_new (api : Api) (observed : Bool) : (new api observed).Ok api observed := by
  constructor
  · rfl
  · exact .inr ⟨⟨rfl, rfl, rfl, rfl, rfl⟩, fun _ => ⟨rfl, rfl, rfl, rfl, rfl⟩⟩

/-- The observer hands on an end of the stream, or an error. -/
theorem complete_placed {status : Status} (hproper : b.Proper) (hevent : b.event = observed)
    (happended : b.appended = []) (hfailed : b.failed = false)
    (hobserver : b.observerFinished = false)
    (hstatus : status = .success ↔ b.guardFinished = false) :
    (b.complete status).placed observed := by
  cases observed with
  | true =>
    simp only [complete, hevent, if_true, placed]
    exact ⟨hproper, rfl, rfl, happended, hfailed, hobserver, hstatus⟩
  | false =>
    simp only [complete, hevent, Bool.false_eq_true, if_false]
    cases status with
    | success => exact ⟨hproper, nofun, fun _ => ⟨happended, by simp [conclude, hfailed, hstatus.mp]⟩⟩
    | failure =>
      have hguard : b.guardFinished = true := by simpa using hstatus
      exact .inl ⟨rfl, hproper, nofun, fun _ => ⟨happended, hguard.symm⟩⟩

/-- An error of the body, or a missing end, becomes a failure. -/
theorem error_placed (h : b.Fresh observed) :
    (complete { b with guardFinished := true } .failure).placed observed :=
  complete_placed nofun h.event h.appended h.failed h.observerFinished ⟨nofun, nofun⟩

/-- The end of a drained body is judged by the marker. -/
theorem done_placed (h : b.Fresh observed) (hdrained : b.Drained) :
    (b.yield .done).placed observed := by
  by_cases hdone : b.marker.done = true
  · simp only [yield, hdone, if_true]
    exact complete_placed (fun _ => ⟨hdone, hdrained⟩) h.event h.appended h.failed
      h.observerFinished (by simp [h.guardFinished])
  · simp only [yield, hdone, Bool.false_eq_true, if_false]
    exact error_placed h

section Frames

/-- What the observer and the end of the body leave alone. -/
def Frame (b b' : Body) : Prop :=
  b'.marker = b.marker ∧ b'.delivered = b.delivered ∧ b'.dropped = b.dropped ∧
    b'.drained = b.drained

theorem conclude_frame (b : Body) (status : Status) : Frame b (b.conclude status) := by
  cases status <;> exact ⟨rfl, rfl, rfl, rfl⟩

theorem complete_frame (b : Body) (status : Status) : Frame b (b.complete status) := by
  cases hevent : b.event with
  | true => simp only [complete, hevent, if_true]; exact ⟨rfl, rfl, rfl, rfl⟩
  | false =>
    simp only [complete, hevent, Bool.false_eq_true, if_false]
    exact conclude_frame b status

theorem error_frame (b : Body) : Frame b (b.yield .error) :=
  complete_frame { b with guardFinished := true } .failure

theorem done_frame (b : Body) : Frame b (b.yield .done) := by
  by_cases hdone : b.marker.done = true
  · simp only [yield, hdone, if_true]
    exact complete_frame b .success
  · simp only [yield, hdone, Bool.false_eq_true, if_false]
    exact error_frame b

theorem finish_frame (b : Body) : Frame b b.finish := done_frame { b with receiverAlive := false }

theorem receiveTerminal_frame (b : Body) (signal : Signal Bool) :
    Frame b (b.receiveTerminal signal) := by
  cases signal with
  | pending => exact finish_frame { b with terminalRx := false }
  | dropped => exact finish_frame { b with terminalRx := false }
  | sent ok =>
    cases ok with
    | true => exact finish_frame { b with terminalRx := false, permit := false }
    | false => exact error_frame { b with terminalRx := false, permit := false }

/-- What keeps the bytes keeps the marker. -/
theorem Ok.of_frame {b' : Body} (h : b.Ok api observed) (hframe : Frame b b')
    (hplaced : b'.placed observed) : b'.Ok api observed :=
  ⟨by rw [hframe.1, hframe.2.1, h.marker], hplaced⟩

end Frames

section Steps

theorem Ok.resting (h : b.Ok api observed) (hpoll : b.poll = .resting) :
    b.observerFinished = true ∧ b.Settled observed ∨
      b.Fresh observed ∧ (b.dropped = false → b.Open) := by
  simpa only [Body.placed, hpoll] using h.placed

theorem Ok.receiving (h : b.Ok api observed) (hpoll : b.poll = .receiving) :
    b.Fresh observed ∧ (b.dropped = false → b.Open) := by
  simpa only [Body.placed, hpoll] using h.placed

theorem Ok.waiting (h : b.Ok api observed) (hpoll : b.poll = .waiting) :
    b.Fresh observed ∧ b.Drained := by
  simpa only [Body.placed, hpoll] using h.placed

theorem Ok.appending {status : Status} (h : b.Ok api observed)
    (hpoll : b.poll = .appending status) : b.Appending observed status := by
  simpa only [Body.placed, hpoll] using h.placed

theorem Ok.finished (h : b.Ok api observed) (hpoll : b.poll = .finished) : b.Settled observed := by
  simpa only [Body.placed, hpoll] using h.placed

/-- Once the observer is finished, the body only ends. -/
theorem next_of_finished (h : b.observerFinished = true) : b.next = { b with poll := .finished } := by
  rw [next, if_pos h]

theorem next_of_fresh (h : b.Fresh observed) : b.next = { b with poll := .receiving } := by
  simp [next, h.observerFinished, h.guardFinished]

theorem Ok.next (h : b.Ok api observed) (hpoll : b.poll = .resting) : b.next.Ok api observed := by
  obtain ⟨hfinished, hsettled⟩ | ⟨hfresh, hopen⟩ := h.resting hpoll
  · rw [next_of_finished hfinished]
    exact ⟨h.marker, hsettled.proper, hsettled.logged, hsettled.unlogged⟩
  · rw [next_of_fresh hfresh]
    exact ⟨h.marker, ⟨hfresh.event, hfresh.appended, hfresh.failed, hfresh.guardFinished,
      hfresh.observerFinished⟩, hopen⟩

theorem receive_of_open (h : b.Open) (chunk : Bytes) : b.receive chunk = b.yield (.chunk chunk) := by
  rw [receive, if_pos h.2.2.1]

theorem Ok.receive {chunk : Bytes} (h : b.Ok api observed) (hpoll : b.poll = .receiving)
    (hdropped : b.dropped = false) : (b.receive chunk).Ok api observed := by
  obtain ⟨hfresh, hopen⟩ := h.receiving hpoll
  rw [receive_of_open (hopen hdropped)]
  constructor
  · simp [yield, h.marker, TerminalEvent.feed_append]
  · exact .inr ⟨⟨hfresh.event, hfresh.appended, hfresh.failed, hfresh.guardFinished,
      hfresh.observerFinished⟩, hopen⟩

theorem receiveNone_of_open (h : b.Open) :
    b.receiveNone = { b with drainedTx := false, drained := .sent (), poll := .waiting } := by
  simp [receiveNone, h.1, h.2.1]

theorem Ok.receiveNone (h : b.Ok api observed) (hpoll : b.poll = .receiving)
    (hdropped : b.dropped = false) : b.receiveNone.Ok api observed := by
  obtain ⟨hfresh, hopen⟩ := h.receiving hpoll
  rw [receiveNone_of_open (hopen hdropped)]
  exact ⟨h.marker, ⟨hfresh.event, hfresh.appended, hfresh.failed, hfresh.guardFinished,
    hfresh.observerFinished⟩, rfl, rfl⟩

theorem Ok.receiveTerminal (h : b.Ok api observed) (hpoll : b.poll = .waiting)
    (signal : Signal Bool) : (b.receiveTerminal signal).Ok api observed := by
  obtain ⟨⟨hevent, happended, hfailed, hguard, hobserver⟩, hdrained⟩ := h.waiting hpoll
  refine h.of_frame (receiveTerminal_frame b signal) ?_
  cases signal with
  | pending =>
    exact done_placed (b := { b with terminalRx := false, receiverAlive := false })
      ⟨hevent, happended, hfailed, hguard, hobserver⟩ hdrained
  | dropped =>
    exact done_placed (b := { b with terminalRx := false, receiverAlive := false })
      ⟨hevent, happended, hfailed, hguard, hobserver⟩ hdrained
  | sent ok =>
    cases ok with
    | true =>
      exact done_placed
        (b := { b with terminalRx := false, permit := false, receiverAlive := false })
        ⟨hevent, happended, hfailed, hguard, hobserver⟩ hdrained
    | false =>
      exact error_placed (b := { b with terminalRx := false, permit := false })
        ⟨hevent, happended, hfailed, hguard, hobserver⟩

theorem appendReturns_frame (b : Body) (status : Status) (ok : Bool) :
    Frame b (b.appendReturns status ok) := by
  cases ok with
  | true => exact conclude_frame { b with appended := b.appended ++ [(status, true)] } status
  | false => exact ⟨rfl, rfl, rfl, rfl⟩

theorem Ok.appendReturns {status : Status} (h : b.Ok api observed)
    (hpoll : b.poll = .appending status) (ok : Bool) :
    (b.appendReturns status ok).Ok api observed := by
  obtain ⟨hproper, hobserved, -, happended, hfailed, -, hstatus⟩ := h.appending hpoll
  refine h.of_frame (appendReturns_frame b status ok) ?_
  have hone : b.appended ++ [(status, ok)] = [(status, ok)] := by rw [happended, List.nil_append]
  have hnot : observed ≠ false := by simp [hobserved]
  cases ok with
  | false =>
    refine .inl ⟨rfl, hproper, fun _ => ⟨status, false, hone, hstatus, ?_⟩, fun h => absurd h hnot⟩
    simp [Body.appendReturns, conclude]
  | true =>
    cases status with
    | success =>
      refine ⟨hproper, fun _ => ⟨_, _, hone, hstatus, ?_⟩, fun h => absurd h hnot⟩
      have hguard : b.guardFinished = false := hstatus.mp rfl
      simp [Body.appendReturns, conclude, hfailed, hguard]
    | failure =>
      refine .inl ⟨rfl, hproper, fun _ => ⟨_, _, hone, hstatus, ?_⟩, fun h => absurd h hnot⟩
      have hguard : b.guardFinished = true := by simpa using hstatus
      simp [Body.appendReturns, conclude, hguard]

/-- Dropping the body does not take the signal of a drained queue back. -/
theorem drop_drained (h : b.Drained) : b.drop.Drained := by
  refine ⟨rfl, ?_⟩
  simp [drop, h.1, h.2]

theorem drop_proper (h : b.Proper) : b.drop.Proper :=
  fun hguard => ⟨(h hguard).1, drop_drained (h hguard).2⟩

theorem drop_fresh (h : b.Fresh observed) : b.drop.Fresh observed :=
  ⟨h.event, h.appended, h.failed, h.guardFinished, h.observerFinished⟩

theorem drop_settled (h : b.Settled observed) : b.drop.Settled observed :=
  ⟨drop_proper h.proper, h.logged, h.unlogged⟩

theorem Ok.drop (h : b.Ok api observed) : b.drop.Ok api observed := by
  refine ⟨h.marker, ?_⟩
  have hsame : b.drop.poll = b.poll := rfl
  cases hpoll : b.poll with
  | resting =>
    simp only [Body.placed, hsame, hpoll]
    obtain ⟨hfinished, hsettled⟩ | ⟨hfresh, -⟩ := h.resting hpoll
    · exact .inl ⟨hfinished, drop_settled hsettled⟩
    · exact .inr ⟨drop_fresh hfresh, nofun⟩
  | receiving =>
    simp only [Body.placed, hsame, hpoll]
    exact ⟨drop_fresh (h.receiving hpoll).1, nofun⟩
  | waiting =>
    simp only [Body.placed, hsame, hpoll]
    exact ⟨drop_fresh (h.waiting hpoll).1, drop_drained (h.waiting hpoll).2⟩
  | appending status =>
    simp only [Body.placed, hsame, hpoll]
    have happending := h.appending hpoll
    exact ⟨drop_proper happending.proper, happending.observed, happending.event,
      happending.appended, happending.failed, happending.observerFinished, happending.status⟩
  | finished =>
    simp only [Body.placed, hsame, hpoll]
    exact drop_settled (h.finished hpoll)

end Steps

section Guard

theorem complete_guardFinished (b : Body) (status : Status) :
    (b.complete status).guardFinished = b.guardFinished := by
  cases hevent : b.event <;> cases status <;> simp [complete, conclude, hevent]

theorem receiveTerminal_error (b : Body) : (b.receiveTerminal (.sent false)).guardFinished = true :=
  complete_guardFinished _ _

theorem appendReturns_guard (b : Body) (status : Status) (ok : Bool) :
    (b.appendReturns status ok).guardFinished = b.guardFinished ∧
      (b.appendReturns status ok).receiverAlive = b.receiverAlive := by
  cases ok <;> cases status <;> exact ⟨rfl, rfl⟩

end Guard

/-- The observer has seen the end of the stream, or an error. -/
def Ended (b : Body) : Prop :=
  (∃ status, b.poll = .appending status) ∨ b.poll = .finished ∨ b.observerFinished = true

end Body

namespace Stream

variable {s t : Stream} {api : Api} {observed : Bool} {e : Event} {task : Task}
  {queue : Option Bytes} {body : Body} {labels : List Event}

/-- What the task has promised to the body, by the place where it is. -/
def taskOk (s : Stream) : Prop :=
  match s.task.producer with
  | .reading | .reserving _ =>
    s.task.senderAlive = true ∧ s.task.terminal = .pending ∧ s.task.eof = false
  | .closing => s.task.senderAlive = true ∧ s.task.terminal = .pending ∧ s.task.eof = true
  | .draining => s.task.terminal = .pending ∧ s.task.eof = true
  | .answering ok => s.task.terminal = .pending ∧ (ok = true → s.task.eof = true)
  | .leaving | .ended =>
    (s.task.terminal = .sent true → s.task.eof = true) ∧
      (s.task.terminal = .pending ∨ s.task.terminal = .dropped → s.body.dropped = true)

/-- The signals and the places of the two parties agree. -/
structure Agreed (s : Stream) : Prop where
  task : s.taskOk
  sent : s.body.drained = .sent () → s.task.senderAlive = false ∧ s.queue = none
  dropped : s.body.drained = .dropped → s.body.dropped = true
  receiver : s.body.receiverAlive = false → s.body.dropped = true ∨ s.task.terminal ≠ .pending
  ended : s.body.Ended → s.body.guardFinished = false → s.task.eof = true

theorem agreed_start (api : Api) (observed : Bool) : (start api observed).Agreed := by
  constructor <;> simp [start, taskOk, Body.new, Body.Ended]

/-- A step of the task that takes no promise back. -/
theorem Agreed.of_task (h : s.Agreed) (htask : taskOk { s with task := task, queue := queue })
    (hqueue : queue = s.queue ∨ s.task.senderAlive = true)
    (hsender : s.task.senderAlive = false → task.senderAlive = false)
    (hterminal : task.terminal = .pending → s.task.terminal = .pending)
    (heof : s.task.eof = true → task.eof = true) :
    Agreed { s with task := task, queue := queue } := by
  refine ⟨htask, fun hsent => ?_, h.dropped, fun hreceiver => ?_, fun hended hguard => ?_⟩
  · obtain ⟨hgone, hnone⟩ := h.sent hsent
    refine ⟨hsender hgone, ?_⟩
    obtain hsame | halive := hqueue
    · exact hsame.trans hnone
    · rw [hgone] at halive
      cases halive
  · obtain hdropped | hsignal := h.receiver hreceiver
    · exact .inl hdropped
    · exact .inr fun hpending => hsignal (hterminal hpending)
  · exact heof (h.ended hended hguard)

theorem Agreed.produce (h : s.Agreed) (hs : s.produce e = some (task, queue)) :
    Agreed { s with task := task, queue := queue } := by
  have htask := h.task
  cases e with
  | readChunk chunk =>
    simp only [Stream.produce, Option.ite_none_right_eq_some, Option.some.injEq,
      Prod.mk.injEq] at hs
    obtain ⟨hreading, rfl, rfl⟩ := hs
    simp only [taskOk, hreading] at htask
    exact h.of_task htask (.inl rfl) id id id
  | readEof =>
    simp only [Stream.produce, Option.ite_none_right_eq_some, Option.some.injEq,
      Prod.mk.injEq] at hs
    obtain ⟨hreading, rfl, rfl⟩ := hs
    simp only [taskOk, hreading] at htask
    exact h.of_task ⟨htask.1, htask.2.1, rfl⟩ (.inl rfl) id id fun _ => rfl
  | readFails =>
    simp only [Stream.produce, Option.ite_none_right_eq_some, Option.some.injEq,
      Prod.mk.injEq] at hs
    obtain ⟨hreading, rfl, rfl⟩ := hs
    simp only [taskOk, hreading] at htask
    exact h.of_task ⟨htask.2.1, nofun⟩ (.inl rfl) id id id
  | readTimesOut =>
    simp only [Stream.produce, Option.ite_none_right_eq_some, Option.some.injEq,
      Prod.mk.injEq] at hs
    obtain ⟨hreading, rfl, rfl⟩ := hs
    simp only [taskOk, hreading] at htask
    exact h.of_task ⟨htask.2.1, nofun⟩ (.inl rfl) id id id
  | seesClosed =>
    have hleaving : s.task.terminal = .pending → s.body.receiverAlive = false →
        (s.task.terminal = .sent true → s.task.eof = true) ∧
          (s.task.terminal = .pending ∨ s.task.terminal = .dropped → s.body.dropped = true) := by
      intro hpending hclosed
      refine ⟨fun hsent => absurd (hpending.symm.trans hsent) nofun, fun _ => ?_⟩
      exact (h.receiver hclosed).resolve_right (not_not.mpr hpending)
    cases hproducer : s.task.producer <;>
      simp only [Stream.produce, hproducer, reduceCtorEq, Option.ite_none_left_eq_some,
        Bool.not_eq_true, Option.some.injEq, Prod.mk.injEq] at hs
    case reading =>
      obtain ⟨hclosed, rfl, rfl⟩ := hs
      simp only [taskOk, hproducer] at htask
      exact h.of_task (hleaving htask.2.1 hclosed) (.inl rfl) id id id
    case reserving chunk =>
      obtain ⟨hclosed, rfl, rfl⟩ := hs
      simp only [taskOk, hproducer] at htask
      exact h.of_task (hleaving htask.2.1 hclosed) (.inl rfl) id id id
  | reserved =>
    cases hproducer : s.task.producer <;> cases hqueue : s.queue <;>
      simp only [Stream.produce, hproducer, hqueue, reduceCtorEq, Option.ite_none_right_eq_some,
        Option.some.injEq, Prod.mk.injEq] at hs
    obtain ⟨-, rfl, rfl⟩ := hs
    simp only [taskOk, hproducer] at htask
    exact h.of_task htask (.inr htask.1) id id id
  | reserveTimesOut =>
    cases hproducer : s.task.producer <;>
      simp only [Stream.produce, hproducer, reduceCtorEq, Option.some.injEq, Prod.mk.injEq] at hs
    obtain ⟨rfl, rfl⟩ := hs
    simp only [taskOk, hproducer] at htask
    exact h.of_task ⟨htask.2.1, nofun⟩ (.inl rfl) id id id
  | dropsSender =>
    simp only [Stream.produce, Option.ite_none_right_eq_some, Option.some.injEq,
      Prod.mk.injEq] at hs
    obtain ⟨hclosing, rfl, rfl⟩ := hs
    simp only [taskOk, hclosing] at htask
    exact h.of_task htask.2 (.inl rfl) (fun _ => rfl) id id
  | seesDrained =>
    simp only [Stream.produce, Option.ite_none_right_eq_some, Option.some.injEq,
      Prod.mk.injEq] at hs
    obtain ⟨⟨hdraining, -⟩, rfl, rfl⟩ := hs
    simp only [taskOk, hdraining] at htask
    exact h.of_task ⟨htask.1, fun _ => htask.2⟩ (.inl rfl) id id id
  | seesUndrained =>
    simp only [Stream.produce, Option.ite_none_right_eq_some, Option.some.injEq,
      Prod.mk.injEq] at hs
    obtain ⟨⟨hdraining, hgone⟩, rfl, rfl⟩ := hs
    simp only [taskOk, hdraining] at htask
    exact h.of_task ⟨fun _ => htask.2, fun _ => h.dropped hgone⟩ (.inl rfl) id id id
  | drainTimesOut =>
    simp only [Stream.produce, Option.ite_none_right_eq_some, Option.some.injEq,
      Prod.mk.injEq] at hs
    obtain ⟨hdraining, rfl, rfl⟩ := hs
    simp only [taskOk, hdraining] at htask
    exact h.of_task ⟨htask.1, nofun⟩ (.inl rfl) id id id
  | answers =>
    cases hproducer : s.task.producer <;>
      simp only [Stream.produce, hproducer, reduceCtorEq, Option.some.injEq, Prod.mk.injEq] at hs
    obtain ⟨rfl, rfl⟩ := hs
    simp only [taskOk, hproducer] at htask
    exact h.of_task ⟨fun hsent => htask.2 (Signal.sent.inj hsent), by simp⟩ (.inl rfl) id
      nofun id
  | leaves =>
    simp only [Stream.produce, Option.ite_none_right_eq_some, Option.some.injEq,
      Prod.mk.injEq] at hs
    obtain ⟨hleaving, rfl, rfl⟩ := hs
    simp only [taskOk, hleaving] at htask
    refine h.of_task ?_ (.inl rfl) (fun _ => rfl) ?_ id
    · by_cases hpending : s.task.terminal = .pending
      · simpa [taskOk, hpending] using htask.2 (.inl hpending)
      · simpa [taskOk, hpending] using htask
    · by_cases hpending : s.task.terminal = .pending <;> simp [hpending]
  | _ => cases hs

section Ends

theorem Agreed.eof_of_sent (h : s.Agreed) (hterminal : s.task.terminal = .sent true) :
    s.task.eof = true := by
  have htask := h.task
  cases hproducer : s.task.producer <;> simp_all [taskOk]

theorem Agreed.dropped_of_terminal (h : s.Agreed) (hterminal : s.task.terminal = .dropped) :
    s.body.dropped = true := by
  have htask := h.task
  cases hproducer : s.task.producer <;> simp_all [taskOk]

end Ends

section Consume

/-- What the body can do, with what it needs of the channel. -/
theorem consume_cases (hs : s.consume e = some (queue, body)) :
    (s.body.poll = .resting ∧ queue = s.queue ∧ body = s.body.next) ∨
      (∃ chunk, s.body.poll = .receiving ∧ s.queue = some chunk ∧ queue = none ∧
        body = s.body.receive chunk) ∨
      (s.body.poll = .receiving ∧ s.queue = none ∧ s.task.senderAlive = false ∧ queue = none ∧
        body = s.body.receiveNone) ∨
      (s.body.poll = .waiting ∧ s.task.terminal ≠ .pending ∧ queue = s.queue ∧
        body = s.body.receiveTerminal s.task.terminal) ∨
      (∃ status ok, s.body.poll = .appending status ∧ queue = s.queue ∧
        body = s.body.appendReturns status ok) ∨
      (queue = s.queue ∧ body = s.body.drop) := by
  cases e <;> grind [Stream.consume]

theorem consume_ok (h : s.body.Ok api observed) (hdropped : s.body.dropped = false)
    (hs : s.consume e = some (queue, body)) : body.Ok api observed := by
  obtain ⟨hpoll, -, rfl⟩ | ⟨chunk, hpoll, -, -, rfl⟩ | ⟨hpoll, -, -, -, rfl⟩ |
    ⟨hpoll, -, -, rfl⟩ | ⟨status, ok, hpoll, -, rfl⟩ | ⟨-, rfl⟩ := consume_cases hs
  · exact h.next hpoll
  · exact h.receive hpoll hdropped
  · exact h.receiveNone hpoll hdropped
  · exact h.receiveTerminal hpoll _
  · exact h.appendReturns hpoll ok
  · exact h.drop

theorem Agreed.consume (h : s.Agreed) (hok : s.body.Ok api observed)
    (hdropped : s.body.dropped = false) (hs : s.consume e = some (queue, body)) :
    Agreed { s with queue := queue, body := body } := by
  obtain ⟨hpoll, rfl, rfl⟩ | ⟨chunk, hpoll, hqueue, rfl, rfl⟩ |
    ⟨hpoll, hqueue, hsender, rfl, rfl⟩ | ⟨hpoll, hterminal, rfl, rfl⟩ |
    ⟨status, ok, hpoll, rfl, rfl⟩ | ⟨rfl, rfl⟩ := consume_cases hs
  · obtain ⟨hfinished, -⟩ | ⟨hfresh, -⟩ := hok.resting hpoll
    · rw [Body.next_of_finished hfinished]
      exact ⟨h.task, h.sent, h.dropped, h.receiver, fun _ => h.ended (.inr (.inr hfinished))⟩
    · rw [Body.next_of_fresh hfresh]
      refine ⟨h.task, h.sent, h.dropped, h.receiver, fun hended => ?_⟩
      simp [Body.Ended, hfresh.observerFinished] at hended
  · obtain ⟨hfresh, hopen⟩ := hok.receiving hpoll
    rw [Body.receive_of_open (hopen hdropped)]
    have hdrained := (hopen hdropped).2.2.2.2
    refine ⟨h.task, fun hsent => ?_, h.dropped, h.receiver, fun hended => ?_⟩
    · exact absurd (hdrained.symm.trans hsent) nofun
    · simp [Body.Ended, Body.yield, hfresh.observerFinished] at hended
  · obtain ⟨hfresh, hopen⟩ := hok.receiving hpoll
    rw [Body.receiveNone_of_open (hopen hdropped)]
    refine ⟨h.task, fun _ => ⟨hsender, rfl⟩, nofun, h.receiver, fun hended => ?_⟩
    simp [Body.Ended, hfresh.observerFinished] at hended
  · obtain ⟨-, -, hsame, hdrained⟩ := Body.receiveTerminal_frame s.body s.task.terminal
    refine ⟨?_, ?_, ?_, fun _ => .inr hterminal, fun _ hguard => ?_⟩
    · simpa only [taskOk, hsame] using h.task
    · simpa only [hdrained] using h.sent
    · simpa only [hdrained, hsame] using h.dropped
    · cases hsignal : s.task.terminal with
      | pending => exact absurd hsignal hterminal
      | dropped =>
        have hgone := h.dropped_of_terminal hsignal
        rw [hdropped] at hgone
        cases hgone
      | sent ok =>
        cases ok with
        | true => exact h.eof_of_sent hsignal
        | false =>
          rw [hsignal] at hguard
          exact absurd ((Body.receiveTerminal_error s.body).symm.trans hguard) nofun
  · obtain ⟨-, -, hsame, hdrained⟩ := Body.appendReturns_frame s.body status ok
    obtain ⟨hguard, hreceiver⟩ := Body.appendReturns_guard s.body status ok
    refine ⟨?_, ?_, ?_, ?_, fun _ hfinished => ?_⟩
    · simpa only [taskOk, hsame] using h.task
    · simpa only [hdrained] using h.sent
    · simpa only [hdrained, hsame] using h.dropped
    · simpa only [hreceiver, hsame] using h.receiver
    · exact h.ended (.inl ⟨status, hpoll⟩) (hguard ▸ hfinished)
  · have htask := h.task
    refine ⟨?_, ?_, fun _ => rfl, fun _ => .inl rfl, h.ended⟩
    · cases hproducer : s.task.producer <;> simp_all [taskOk, Body.drop]
    · intro hsent
      refine h.sent ?_
      cases htx : s.body.drainedTx <;> simp_all [Body.drop]

end Consume

section Flow

/-- The chunk that the task is about to put into the queue. -/
def held : Producer → List Bytes
  | .reserving chunk => [chunk]
  | _ => []

def Looping (producer : Producer) : Prop :=
  producer = .reading ∨ ∃ chunk, producer = .reserving chunk

/-- Chunks move in order, and none is lost before the task leaves its loop. -/
structure Flow (s : Stream) : Prop where
  order : s.body.delivered ++ s.queue.toList <+: s.task.read
  whole : s.task.eof = true → s.body.delivered ++ s.queue.toList = s.task.read
  looping : Looping s.task.producer →
    s.body.delivered ++ s.queue.toList ++ held s.task.producer = s.task.read

/-- What the task can do to the chunks. -/
theorem produce_cases (hs : s.produce e = some (task, queue)) :
    (∃ chunk, s.task.producer = .reading ∧ queue = s.queue ∧
        task = { s.task with producer := .reserving chunk, read := s.task.read ++ [chunk] }) ∨
      (∃ chunk, s.task.producer = .reserving chunk ∧ s.queue = none ∧ queue = some chunk ∧
        task = { s.task with producer := .reading }) ∨
      (s.task.producer = .reading ∧ queue = s.queue ∧
        task = { s.task with producer := .closing, eof := true }) ∨
      (queue = s.queue ∧ task.read = s.task.read ∧ task.eof = s.task.eof ∧
        ¬Looping task.producer) := by
  cases e <;> grind [Stream.produce, Looping]

theorem flow_start (api : Api) (observed : Bool) : (start api observed).Flow := by
  constructor <;> simp [start, Body.new, held]

theorem Flow.produce (h : s.Flow) (ha : s.Agreed) (hs : s.produce e = some (task, queue)) :
    Flow { s with task := task, queue := queue } := by
  have htask := ha.task
  obtain ⟨chunk, hreading, rfl, rfl⟩ | ⟨chunk, hreserving, hnone, rfl, rfl⟩ |
    ⟨hreading, rfl, rfl⟩ | ⟨rfl, hread, heof, hnot⟩ := produce_cases hs
  · have hwhole := h.looping (.inl hreading)
    simp only [hreading, held, List.append_nil, taskOk] at hwhole htask
    refine ⟨h.order.trans (List.prefix_append _ _), ?_, ?_⟩
    · simp [htask.2.2]
    · intro _
      simp [held, ← hwhole]
  · have hwhole := h.looping (.inr ⟨chunk, hreserving⟩)
    simp only [hreserving, hnone, held, taskOk, Option.toList_none, List.append_nil] at hwhole htask
    refine ⟨?_, ?_, ?_⟩
    · simp [← hwhole]
    · simp [htask.2.2]
    · intro _
      simp [held, ← hwhole]
  · have hwhole := h.looping (.inl hreading)
    simp only [hreading, held, List.append_nil] at hwhole
    refine ⟨h.order, fun _ => hwhole, ?_⟩
    rintro (hloop | ⟨chunk, hloop⟩) <;> cases hloop
  · refine ⟨?_, ?_, fun hloop => absurd hloop hnot⟩
    · simpa only [hread] using h.order
    · simpa only [hread, heof] using h.whole

/-- What the body receives is what leaves the queue. -/
theorem consume_delivered (hok : s.body.Ok api observed) (hdropped : s.body.dropped = false)
    (hs : s.consume e = some (queue, body)) :
    body.delivered ++ queue.toList = s.body.delivered ++ s.queue.toList := by
  obtain ⟨hpoll, rfl, rfl⟩ | ⟨chunk, hpoll, hqueue, rfl, rfl⟩ | ⟨hpoll, hqueue, -, rfl, rfl⟩ |
    ⟨hpoll, -, rfl, rfl⟩ | ⟨status, ok, hpoll, rfl, rfl⟩ | ⟨rfl, rfl⟩ := consume_cases hs
  · obtain ⟨hfinished, -⟩ | ⟨hfresh, -⟩ := hok.resting hpoll
    · rw [Body.next_of_finished hfinished]
    · rw [Body.next_of_fresh hfresh]
  · rw [Body.receive_of_open ((hok.receiving hpoll).2 hdropped), hqueue]
    simp [Body.yield]
  · rw [Body.receiveNone_of_open ((hok.receiving hpoll).2 hdropped), hqueue]
  · rw [(Body.receiveTerminal_frame _ _).2.1]
  · rw [(Body.appendReturns_frame _ _ _).2.1]
  · rfl

theorem Flow.consume (h : s.Flow) (hok : s.body.Ok api observed)
    (hdropped : s.body.dropped = false) (hs : s.consume e = some (queue, body)) :
    Flow { s with queue := queue, body := body } := by
  have hsame := consume_delivered hok hdropped hs
  refine ⟨?_, ?_, ?_⟩
  · simpa only [hsame] using h.order
  · simpa only [hsame] using h.whole
  · simpa only [hsame] using h.looping

end Flow

/-- Everything that holds of a stream at any moment. -/
structure Sound (api : Api) (observed : Bool) (s : Stream) : Prop where
  ok : s.body.Ok api observed
  agreed : s.Agreed
  flow : s.Flow

theorem sound_start (api : Api) (observed : Bool) : Sound api observed (start api observed) :=
  ⟨Body.ok_new api observed, agreed_start api observed, flow_start api observed⟩

theorem Sound.step (h : Sound api observed s) (hs : s.step e = some t) : Sound api observed t := by
  unfold Stream.step at hs
  cases hproduce : s.produce e with
  | some after =>
    obtain ⟨task, queue⟩ := after
    simp only [hproduce, Option.some.injEq] at hs
    subst hs
    exact ⟨h.ok, h.agreed.produce hproduce, h.flow.produce h.agreed hproduce⟩
  | none =>
    cases hdropped : s.body.dropped with
    | true => simp [hproduce, hdropped] at hs
    | false =>
      simp only [hproduce, hdropped, Bool.false_eq_true, if_false, Option.map_eq_some_iff] at hs
      obtain ⟨⟨queue, body⟩, hconsume, rfl⟩ := hs
      exact ⟨consume_ok h.ok hdropped hconsume, h.agreed.consume h.ok hdropped hconsume,
        h.flow.consume h.ok hdropped hconsume⟩

theorem sound_of_run (h : interleaving.Run (start api observed) labels s) :
    Sound api observed s :=
  h.invariant (Sound api observed) (fun _ _ _ hsound hstep => hsound.step hstep)
    (sound_start api observed)

/-- An end without an error comes after the last byte of a terminated upstream response. -/
theorem Sound.clean (h : Sound api observed s) (hover : s.body.poll = .finished)
    (hguard : s.body.guardFinished = false) :
    s.task.eof = true ∧ s.body.delivered = s.task.read ∧
      Terminated api.terminal s.body.delivered.flatten := by
  have heof := h.agreed.ended (.inr (.inl hover)) hguard
  obtain ⟨hdone, hdrained⟩ := (h.ok.finished hover).proper hguard
  have hqueue := (h.agreed.sent hdrained.2).2
  have hwhole := h.flow.whole heof
  rw [hqueue, Option.toList_none, List.append_nil] at hwhole
  rw [h.ok.marker, feed_new_iff api.terminal_short] at hdone
  exact ⟨heof, hwhole, hdone⟩

/-- Whatever the upstream does and however the parties interleave, the client receives a
prefix of the upstream bytes; it sees an end without an error only after the whole of a
terminated response; and one completion event is appended at the end, a success exactly
when the response was terminated and no error raised, whose failure is an error. -/
theorem streamed_end_not_truncated (api : Api) (observed : Bool) (labels : List Event) (s : Stream)
    (h : interleaving.Run (start api observed) labels s) :
    s.body.delivered.flatten <+: s.task.read.flatten ∧
      (s.body.poll = .finished →
        (s.body.failed = false → s.task.eof = true ∧ s.body.delivered = s.task.read ∧
          Terminated api.terminal s.body.delivered.flatten) ∧
        (observed = true → ∃ status ok, s.body.appended = [(status, ok)] ∧
          (status = .success ↔
            Terminated api.terminal s.body.delivered.flatten ∧ s.body.guardFinished = false) ∧
          s.body.failed = (s.body.guardFinished || !ok)) ∧
        (observed = false → s.body.appended = [] ∧ s.body.failed = s.body.guardFinished)) := by
  have hsound := sound_of_run h
  refine ⟨?_, fun hover => ?_⟩
  · obtain ⟨rest, hrest⟩ := (List.prefix_append _ _).trans hsound.flow.order
    exact ⟨rest.flatten, by rw [← List.flatten_append, hrest]⟩
  · have hsettled := hsound.ok.finished hover
    refine ⟨fun hfailed => ?_, fun hobserved => ?_, hsettled.unlogged⟩
    · refine hsound.clean hover ?_
      cases hguard : s.body.guardFinished with
      | false => rfl
      | true =>
        cases hobserved : observed with
        | false => rw [(hsettled.unlogged hobserved).2, hguard] at hfailed; cases hfailed
        | true =>
          obtain ⟨_, _, -, -, hwhole⟩ := hsettled.logged hobserved
          rw [hwhole, hguard] at hfailed
          cases hfailed
    · obtain ⟨status, ok, happended, hstatus, hfailed⟩ := hsettled.logged hobserved
      refine ⟨status, ok, happended, hstatus.trans ?_, hfailed⟩
      exact ⟨fun hguard => ⟨(hsound.clean hover hguard).2.2, hguard⟩, And.right⟩

/-- A response that is read, delivered and logged in full. -/
def wholeResponse : List Event :=
  [.readChunk (ascii "data: [DONE]\n\n"), .reserved, .poll, .receives, .poll, .readEof,
    .dropsSender, .receivesNone, .seesDrained, .answers, .receivesTerminal, .appends true]

theorem streamed_end_not_truncated_whole :
    ∃ s, interleaving.Run (start .chat true) wholeResponse s ∧ s.body.poll = .finished ∧
      s.body.delivered.flatten <+: s.task.read.flatten ∧ s.task.eof = true := by
  obtain ⟨s, hs, hover, hfailed⟩ : ∃ s, wholeResponse.foldlM step (start .chat true) = some s ∧
      s.body.poll = .finished ∧ s.body.failed = false := ⟨_, rfl, rfl, rfl⟩
  have hrun : interleaving.Run (start .chat true) wholeResponse s :=
    System.run_of_foldlM (fun _ _ _ h => h) hs
  have h := streamed_end_not_truncated .chat true wholeResponse s hrun
  exact ⟨s, hrun, hover, h.1, ((h.2 hover).1 hfailed).1⟩

end Stream

end Proxy.Streaming
